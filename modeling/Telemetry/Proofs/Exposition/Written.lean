import Telemetry.Exposition.Reading
import Telemetry.Proofs.Exposition.Plain
import Telemetry.Proofs.Exposition.Samples

/-!
# Written lines

The lines of an exposition are what its text is cut into, since no line holds a line
feed: those in help texts and in the values of labels are escaped.  A sample is
written as a spelling without blanks, which is valid if its names are names, so it
passes the line check.  If its name has no colon and its labels have plain values,
the spelling is plain, and what is read is what was written.
-/

namespace Telemetry

open Text

/-! ## Escapes -/

theorem escapeLabelValue_cons (c : Char) (s : List Char) :
    escapeLabelValue (c :: s) =
      (if c = '\\' then ['\\', '\\'] else if c = '"' then ['\\', '"']
        else if c = '\n' then ['\\', 'n'] else [c]) ++ escapeLabelValue s := by
  rw [escapeLabelValue, List.flatMap_cons]
  congr 1
  split
  next => rfl
  next => rfl
  next => rfl
  next backslash quote feed => rw [if_neg backslash, if_neg quote, if_neg feed]

theorem isQuoted_escape : ∀ s : List Char, isQuoted (escapeLabelValue s) = true
  | [] => rfl
  | c :: s => by
      rw [escapeLabelValue_cons]
      split
      · exact isQuoted_escape s
      · split
        · exact isQuoted_escape s
        · split
          · exact isQuoted_escape s
          · rw [List.singleton_append, isQuoted]
            · exact isQuoted_escape s
            · assumption
            · assumption

/-- The text that is meant by an escaped one is the text that was escaped. -/
theorem unescape_escape : ∀ s : List Char, unescape (escapeLabelValue s) = s
  | [] => by rw [escapeLabelValue, List.flatMap_nil, unescape]
  | c :: s => by
      rw [escapeLabelValue_cons]
      split
      next backslash =>
        change unescape ('\\' :: '\\' :: escapeLabelValue s) = _
        rw [unescape, unescape_escape s, backslash]
      next backslash =>
        split
        next quote =>
          change unescape ('\\' :: '"' :: escapeLabelValue s) = _
          rw [unescape, unescape_escape s, quote]
        next =>
          split
          next feed =>
            change unescape ('\\' :: 'n' :: escapeLabelValue s) = _
            rw [unescape, unescape_escape s, feed]
          next =>
            rw [List.singleton_append, unescape, unescape_escape s]
            all_goals exact fun _ equal => absurd equal backslash

theorem escapeLabelValue_of_plain :
    ∀ {s : List Char}, (∀ c ∈ s, isPlainChar c = true ∧ c ≠ '\\' ∧ c ≠ '\n') →
      escapeLabelValue s = s
  | [], _ => rfl
  | c :: s, plain => by
      obtain ⟨ordinary, backslash, feed⟩ := plain c List.mem_cons_self
      obtain ⟨-, -, -, quote⟩ := ne_of_isPlainChar ordinary
      rw [escapeLabelValue_cons, if_neg backslash, if_neg quote, if_neg feed,
        escapeLabelValue_of_plain fun c' there => plain c' (List.mem_cons_of_mem c there)]
      rfl

theorem ne_of_mem_escapeLabelValue {s : List Char} {c : Char} (there : c ∈ escapeLabelValue s) :
    c ≠ '\n' := by
  obtain ⟨d, -, there⟩ := List.mem_flatMap.mp there
  revert there
  split
  next => exact (by decide : ∀ c ∈ ['\\', '\\'], c ≠ '\n') c
  next => exact (by decide : ∀ c ∈ ['\\', '"'], c ≠ '\n') c
  next => exact (by decide : ∀ c ∈ ['\\', 'n'], c ≠ '\n') c
  next feed =>
    intro there
    rw [List.mem_singleton.mp there]
    exact feed

theorem ne_of_mem_escapeHelp {s : List Char} {c : Char} (there : c ∈ escapeHelp s) : c ≠ '\n' := by
  obtain ⟨d, -, there⟩ := List.mem_flatMap.mp there
  revert there
  split
  next => exact (by decide : ∀ c ∈ ['\\', '\\'], c ≠ '\n') c
  next => exact (by decide : ∀ c ∈ ['\\', 'n'], c ≠ '\n') c
  next feed =>
    intro there
    rw [List.mem_singleton.mp there]
    exact feed

theorem escapeHelp_of_plain :
    ∀ {s : List Char}, (∀ c ∈ s, c ≠ '\\' ∧ c ≠ '\n') → escapeHelp s = s
  | [], _ => rfl
  | c :: s, plain => by
      obtain ⟨backslash, feed⟩ := plain c List.mem_cons_self
      have rest := escapeHelp_of_plain fun c' there => plain c' (List.mem_cons_of_mem c there)
      rw [escapeHelp] at rest ⊢
      rw [List.flatMap_cons, rest]
      split
      next => exact absurd rfl backslash
      next => exact absurd rfl feed
      next => rfl

/-! ## Samples -/

/-- A label as it is written. -/
def labelSpelling (label : String × String) : LabelSpelling where
  name := label.1.toList
  quoted := escapeLabelValue label.2.toList

namespace Sample

/-- A sample as it is written. -/
def spelling (s : Sample) : Spelling where
  name := s.name.toList
  braces := if s.labels.isEmpty then none else some (s.labels.map labelSpelling, [])
  number := s.value.text

/-- Whether the names of a sample are names. -/
structure Named (s : Sample) : Prop where
  /-- That of the sample may have colons. -/
  name : IsName isNameChar s.name.toList
  /-- Those of its labels have none. -/
  labels : ∀ l ∈ s.labels, IsName isLabelChar l.1.toList

/-- Whether a sample is written in a plain way. -/
structure Plain (s : Sample) : Prop where
  /-- Its name has no colon. -/
  name : IsName isLabelChar s.name.toList
  /-- Its labels have names. -/
  labels : ∀ l ∈ s.labels, IsName isLabelChar l.1.toList
  /-- There is nothing in their values that would be escaped or could be taken for an end. -/
  values : ∀ l ∈ s.labels, ∀ c ∈ l.2.toList, isPlainChar c = true ∧ c ≠ '\\' ∧ c ≠ '\n'

theorem Plain.named {s : Sample} (plain : s.Plain) : s.Named :=
  ⟨⟨plain.name.nonempty, plain.name.start, fun c there =>
    isNameChar_of_isLabelChar (plain.name.all c there)⟩, plain.labels⟩

theorem text_spelling (s : Sample) : s.spelling.text = s.text := by
  have labels : Spelling.bracesText s.spelling.braces = labelsText s.labels := by
    rw [spelling, labelsText]
    split
    next => rfl
    next =>
      have texts : (s.labels.map labelSpelling).map (·.text) = s.labels.map labelText := by
        rw [List.map_map]
        refine List.map_congr_left fun l _ => ?_
        simp only [Function.comp_apply, labelSpelling, LabelSpelling.text, labelText,
          List.nil_append, List.append_assoc, List.cons_append]
      rw [Spelling.bracesText, Spelling.inner, texts, List.append_nil]
  rw [Spelling.text, Spelling.rest, labels]
  simp only [spelling, Spelling.stampText, text, List.nil_append, List.append_nil,
    List.append_assoc, List.cons_append]

theorem not_isBlank_of_mem_text {x : Double} {c : Char} (there : c ∈ x.text) :
    isBlank c = false :=
  (by decide : ∀ c ∈ Double.textChars, isBlank c = false) c (Double.mem_textChars_of_mem_text there)

theorem valid_spelling {s : Sample} (named : s.Named) : s.spelling.Valid where
  name := named.name
  gap := List.forall_mem_nil _
  ends := by
    rw [Spelling.rest, spelling]
    dsimp only
    split
    · exact (by decide : isNameChar ' ' = false)
    · exact (by decide : isNameChar '{' = false)
  braces := by
    intro labels closing braces
    rw [spelling] at braces
    dsimp only at braces
    split at braces
    · cases braces
    next given =>
      cases braces
      constructor
      · intro l there
        obtain ⟨label, among, rfl⟩ := List.mem_map.mp there
        have unspaced := List.forall_mem_nil (isBlank · = true)
        exact ⟨unspaced, named.labels label among, unspaced, unspaced, isQuoted_escape _, unspaced⟩
      · rw [if_neg]
        · exact .inl rfl
        · intro empty
          rw [List.map_eq_nil_iff.mp empty] at given
          exact given rfl
  space := (by decide : ∀ c ∈ [' '], isBlank c = true)
  word := fun c there => not_isBlank_of_mem_text there
  number := by
    rw [spelling]
    dsimp only
    rw [Double.read?_text]
    rfl
  stamp := fun _ _ stamped => absurd stamped.symm (Option.some_ne_none _)

/-- A sample whose names are names passes the line check. -/
theorem isSampleLine_text {s : Sample} (named : s.Named) : isSampleLine s.text = true := by
  rw [← text_spelling]
  exact Spelling.isSampleLine_text (valid_spelling named)

theorem labelSet_spelling (s : Sample) : s.spelling.labelSet = .ofList s.labels := by
  have each : ∀ l, (labelSpelling l).label = l := by
    rintro ⟨name, value⟩
    rw [labelSpelling, LabelSpelling.label]
    simp only [unescape_escape, String.ofList_toList]
  rw [Spelling.labelSet, Spelling.labels, spelling]
  dsimp only
  split
  next none_ =>
    rw [List.isEmpty_iff.mp none_]
    rfl
  next =>
    congr 1
    refine (List.map_map ..).trans ?_
    exact (List.map_congr_left fun l _ => each l).trans (List.map_id _)

theorem plain_spelling {s : Sample} (plain : s.Plain) : s.spelling.Plain where
  name := plain.name
  braces := by
    intro labels closing braces
    rw [spelling] at braces
    dsimp only at braces
    split at braces
    · cases braces
    next given =>
      cases braces
      refine ⟨rfl, ?_⟩
      cases equal : s.labels with
      | nil =>
          rw [equal] at given
          exact absurd rfl given
      | cons l labels =>
          obtain ⟨c, more, name, -⟩ := (plain.labels l (equal ▸ List.mem_cons_self)).head
          rw [Spelling.inner, List.map_cons, List.map_cons, LabelSpelling.text, labelSpelling]
          dsimp only
          rw [name, List.nil_append, List.cons_append, List.intercalate_cons_cons_left]
          exact List.cons_ne_nil _ _
  labels := by
    intro l there
    rw [Spelling.labels, spelling] at there
    dsimp only at there
    split at there
    · cases there
    · obtain ⟨label, among, rfl⟩ := List.mem_map.mp there
      have values := plain.values label among
      have unescaped : (labelSpelling label).quoted = label.2.toList :=
        escapeLabelValue_of_plain values
      refine ⟨rfl, plain.labels label among, rfl, rfl, fun c there => ?_, ?_, rfl⟩
      · rw [unescaped] at there
        exact (values c there).1
      · rw [unescaped]
        exact unescape_of_ne fun c there => (values c there).2.1
  space := nofun

/-- The entry of a sample. -/
def entry (s : Sample) : Entry :=
  .sample s.name (if s.labels.isEmpty then none
    else some (Spelling.inner (s.labels.map labelSpelling) [])) s.value.text

/-- What is read from a sample that is written in a plain way has its name, its labels and its
number. -/
theorem ofLine?_text {s : Sample} (plain : s.Plain) : Entry.ofLine? s.text = some s.entry := by
  have valid := valid_spelling plain.named
  have trimmed := Spelling.trim_text valid
  rw [text_spelling] at trimmed
  rw [Spelling.ofLine?_of_plain valid (plain_spelling plain) (trimmed.trans (text_spelling s).symm),
    Spelling.entry, entry, spelling]
  dsimp only
  rw [String.ofList_toList]
  split <;> rfl

end Sample

/-! ## Comments -/

/-- Whether a text may follow a name as its help: it is not empty, is not escaped, and has no
blanks at its ends. -/
@[mk_iff]
structure IsPlainHelp (s : List Char) : Prop where
  nonempty : s ≠ []
  unescaped : ∀ c ∈ s, c ≠ '\\' ∧ c ≠ '\n'
  start : s.head?.any isBlank = false
  last : s.getLast?.any isBlank = false

instance (s : List Char) : Decidable (IsPlainHelp s) := decidable_of_iff _ (isPlainHelp_iff s).symm

theorem afterBlanks?_space {s : List Char} (start : s.head?.any isBlank = false) :
    Entry.afterBlanks? (' ' :: s) = some s := by
  have trimmed : trimStart (' ' :: s) = s :=
    (trimStart_cons_of_blank (by decide) s).trans (trimStart_of_head start)
  rw [Entry.afterBlanks?, trimmed]
  rfl

theorem nameThen?_append {name rest : List Char} (h : IsName isLabelChar name)
    (start : rest.head?.any isBlank = false) :
    Entry.nameThen? (name ++ ' ' :: rest) = some (String.ofList name, rest) := by
  have stop : (' ' :: rest).head?.any isWord = false := (by decide : isWord ' ' = false)
  rw [Entry.nameThen?, Spelling.run?_append h.nonempty
    (fun c there => isWord_of_isLabelChar (h.all c there)) stop]
  dsimp only [bind, Option.bind]
  rw [afterBlanks?_space start]
  rfl

/-- What follows the mark of a comment and a keyword. -/
theorem afterKeyword?_append (keyword : String) (word : keyword.toList.head?.any isBlank = false)
    (nonempty : keyword.toList ≠ []) {rest : List Char} (start : rest.head?.any isBlank = false) :
    Entry.afterKeyword? keyword ('#' :: ' ' :: (keyword.toList ++ ' ' :: rest)) = some rest := by
  have first : (keyword.toList ++ ' ' :: rest).head?.any isBlank = false := by
    cases equal : keyword.toList with
    | nil => exact absurd equal nonempty
    | cons c more =>
        rw [equal] at word
        exact word
  have isPrefix : keyword.toList.isPrefixOf (keyword.toList ++ ' ' :: rest) = true :=
    List.isPrefixOf_iff_prefix.mpr (List.prefix_append _ _)
  rw [Entry.afterKeyword?]
  dsimp only [bind, Option.bind]
  rw [afterBlanks?_space first]
  dsimp only
  rw [if_pos isPrefix, ← String.length_toList, List.drop_left]
  exact afterBlanks?_space start

theorem afterKeyword?_type (rest : List Char) :
    Entry.afterKeyword? "HELP" ('#' :: ' ' :: ("TYPE".toList ++ rest)) = none := by
  have help : "HELP".toList = ['H', 'E', 'L', 'P'] := by decide
  have type : "TYPE".toList = ['T', 'Y', 'P', 'E'] := by decide
  rw [Entry.afterKeyword?, type]
  dsimp only [bind, Option.bind]
  have start : (['T', 'Y', 'P', 'E'] ++ rest).head?.any isBlank = false :=
    (by decide : isBlank 'T' = false)
  rw [afterBlanks?_space start]
  dsimp only
  rw [help]
  rfl

theorem mark_help (rest : List Char) :
    "# HELP ".toList ++ rest = '#' :: ' ' :: ("HELP".toList ++ ' ' :: rest) := by
  have mark : "# HELP ".toList = '#' :: ' ' :: ("HELP".toList ++ [' ']) := by decide
  rw [mark, List.cons_append, List.cons_append, List.append_assoc, List.singleton_append]

theorem mark_type (rest : List Char) :
    "# TYPE ".toList ++ rest = '#' :: ' ' :: ("TYPE".toList ++ ' ' :: rest) := by
  have mark : "# TYPE ".toList = '#' :: ' ' :: ("TYPE".toList ++ [' ']) := by decide
  rw [mark, List.cons_append, List.cons_append, List.append_assoc, List.singleton_append]

theorem text_help (name text : String) :
    (Line.help name text).text = "# HELP ".toList ++ name.toList ++ ' ' :: escapeHelp text.toList :=
  rfl

theorem text_type (name : String) (kind : Kind) :
    (Line.type name kind).text = "# TYPE ".toList ++ name.toList ++ ' ' :: kind.word.toList :=
  rfl

theorem head?_name {name : List Char} (h : IsName isLabelChar name) (rest : List Char) :
    (name ++ rest).head?.any isBlank = false := by
  obtain ⟨c, more, rfl, allowed⟩ := h.head
  exact not_isBlank_of_isNameChar (isNameChar_of_isLabelChar allowed)

theorem trim_comment (front : List Char) {word : List Char} (nonempty : word ≠ [])
    (last : word.getLast?.any isBlank = false) :
    trim ('#' :: (front ++ word)) = '#' :: (front ++ word) := by
  have mark : isBlank '#' = false := by decide
  refine trim_of_ends mark ?_
  rw [← List.cons_append, List.getLast?_append]
  cases ends : word.getLast? with
  | none => exact absurd (List.getLast?_eq_none_iff.mp ends) nonempty
  | some d =>
      rw [ends] at last
      exact last

/-- The help of a name is read as it was written. -/
theorem ofLine?_help {name text : String} (h : IsName isLabelChar name.toList)
    (plain : IsPlainHelp text.toList) :
    Entry.ofLine? (Line.help name text).text = some (.help name text) := by
  have line : (Line.help name text).text =
      '#' :: ' ' :: ("HELP".toList ++ ' ' :: (name.toList ++ ' ' :: text.toList)) := by
    rw [text_help, escapeHelp_of_plain plain.unescaped, List.append_assoc]
    exact mark_help _
  have trimmed : trim (Line.help name text).text = (Line.help name text).text := by
    have ends := trim_comment (' ' :: ("HELP".toList ++ ' ' :: (name.toList ++ [' '])))
      plain.nonempty plain.last
    simp only [List.cons_append, List.append_assoc, List.nil_append] at ends
    rw [line]
    exact ends
  have given : text.toList.isEmpty = false := by
    cases equal : text.toList with
    | nil => exact absurd equal plain.nonempty
    | cons c more => rfl
  have keyword := afterKeyword?_append "HELP" (by decide) (by decide)
    (head?_name h (' ' :: text.toList))
  rw [Entry.ofLine?, trimmed, line, Entry.help?, keyword]
  dsimp only [bind, Option.bind]
  rw [nameThen?_append h plain.start]
  dsimp only
  rw [given, String.ofList_toList, String.ofList_toList]
  rfl

/-- The kind of a name is read as it was written. -/
theorem ofLine?_type {name : String} (h : IsName isLabelChar name.toList) (kind : Kind) :
    Entry.ofLine? (Line.type name kind).text = some (.type name kind) := by
  have line : (Line.type name kind).text =
      '#' :: ' ' :: ("TYPE".toList ++ ' ' :: (name.toList ++ ' ' :: kind.word.toList)) := by
    rw [text_type, List.append_assoc]
    exact mark_type _
  obtain ⟨nonempty, start, last, run, read⟩ : kind.word.toList ≠ [] ∧
      kind.word.toList.head?.any isBlank = false ∧
      kind.word.toList.getLast?.any isBlank = false ∧
      Entry.run? isWord kind.word.toList = some (kind.word, []) ∧
      Entry.kindOfWord kind.word = kind := by
    cases kind <;> decide
  have trimmed : trim (Line.type name kind).text = (Line.type name kind).text := by
    have ends := trim_comment (' ' :: ("TYPE".toList ++ ' ' :: (name.toList ++ [' '])))
      nonempty last
    simp only [List.cons_append, List.append_assoc, List.nil_append] at ends
    rw [line]
    exact ends
  have keyword := afterKeyword?_append "TYPE" (by decide) (by decide)
    (head?_name h (' ' :: kind.word.toList))
  rw [Entry.ofLine?, trimmed, line, Entry.help?, afterKeyword?_type, Entry.type?, keyword]
  dsimp only [bind, Option.bind]
  rw [nameThen?_append h start]
  dsimp only
  rw [run, String.ofList_toList]
  dsimp only
  rw [read]
  rfl

/-! ## Expositions -/

/-- Whether the names on a line are names. -/
def Line.Named : Line → Prop
  | help name _ => IsName isNameChar name.toList
  | type name _ => IsName isNameChar name.toList
  | sample s => s.Named

theorem ne_of_mem_name {name : String} (h : IsName isNameChar name.toList) {c : Char}
    (there : c ∈ name.toList) : c ≠ '\n' :=
  of_isNameChar (· ≠ '\n') (by decide) (h.all c there)

theorem Sample.ne_of_mem_text {s : Sample} (named : s.Named) {c : Char} (there : c ∈ s.text) :
    c ≠ '\n' := by
  rw [text, List.append_assoc, List.mem_append, List.mem_append, List.mem_cons] at there
  rcases there with there | there | rfl | there
  · exact ne_of_mem_name named.name there
  · rw [labelsText] at there
    split at there
    · cases there
    · rw [List.cons_append, List.mem_cons, List.mem_append, List.mem_singleton] at there
      rcases there with rfl | there | rfl
      · decide
      · rcases mem_intercalate there with rfl | ⟨piece, among, there⟩
        · decide
        · obtain ⟨l, label, rfl⟩ := List.mem_map.mp among
          rw [labelText, List.append_assoc, List.mem_append, List.cons_append, List.mem_cons,
            List.cons_append, List.mem_cons, List.mem_append, List.mem_singleton] at there
          rcases there with there | rfl | rfl | there | rfl
          · exact of_isNameChar (· ≠ '\n') (by decide)
              (isNameChar_of_isLabelChar ((named.labels l label).all c there))
          · decide
          · decide
          · exact ne_of_mem_escapeLabelValue there
          · decide
      · decide
  · decide
  · exact (by decide : ∀ c ∈ Double.textChars, c ≠ '\n') c (Double.mem_textChars_of_mem_text there)

theorem Line.ne_of_mem_text {line : Line} (named : line.Named) {c : Char} (there : c ∈ line.text) :
    c ≠ '\n' := by
  cases line with
  | help name text =>
      rw [text_help, List.append_assoc, List.mem_append, List.mem_append, List.mem_cons] at there
      rcases there with there | there | rfl | there
      · exact (by decide : ∀ c ∈ "# HELP ".toList, c ≠ '\n') c there
      · exact ne_of_mem_name named there
      · decide
      · exact ne_of_mem_escapeHelp there
  | type name kind =>
      rw [text_type, List.append_assoc, List.mem_append, List.mem_append, List.mem_cons] at there
      have word : ∀ c ∈ kind.word.toList, c ≠ '\n' := by cases kind <;> decide
      rcases there with there | there | rfl | there
      · exact (by decide : ∀ c ∈ "# TYPE ".toList, c ≠ '\n') c there
      · exact ne_of_mem_name named there
      · decide
      · exact word c there
  | sample s => exact Sample.ne_of_mem_text named there

/-- The text of an exposition is cut into its lines, with an empty one at the end. -/
theorem lines_exposition {families : List Family}
    (named : ∀ line ∈ families.flatMap Family.lines, line.Named) :
    Text.lines (exposition families) = (families.flatMap Family.lines).map Line.text ++ [[]] := by
  have pieces : exposition families =
      ((families.flatMap Family.lines).map Line.text).flatMap (· ++ ['\n']) := by
    rw [exposition, List.flatMap_map]
  rw [pieces, Text.lines, splitAt_flatMap (by decide)]
  intro piece there c among
  obtain ⟨line, member, rfl⟩ := List.mem_map.mp there
  rw [decide_eq_false_iff_not]
  exact Line.ne_of_mem_text (named line member) among

theorem trim_cons {c : Char} (start : isBlank c = false) (s : List Char) :
    ∃ t, trim (c :: s) = c :: t := by
  have front : trimStart (c :: s) = c :: s := trimStart_of_head start
  rw [trim, front, trimEnd, List.reverse_cons, List.dropWhile_append]
  split
  · exact ⟨[], by simp [start]⟩
  · exact ⟨(s.reverse.dropWhile isBlank).reverse, by simp⟩

/-- A line whose names are names is a comment or a sample. -/
theorem mustBeSample_text {line : Line} (named : line.Named) :
    Exposition.mustBeSample line.text = true → isSampleLine (trim line.text) = true := by
  have comment : ∀ s, Exposition.mustBeSample ('#' :: s) = false := by
    intro s
    obtain ⟨t, trimmed⟩ := trim_cons (c := '#') (by decide) s
    rw [Exposition.mustBeSample, trimmed]
    rfl
  cases line with
  | help name text =>
      rw [text_help, List.append_assoc, mark_help, comment]
      exact nofun
  | type name kind =>
      rw [text_type, List.append_assoc, mark_type, comment]
      exact nofun
  | sample s =>
      intro _
      have trimmed := Spelling.trim_text (Sample.valid_spelling named)
      rw [Sample.text_spelling] at trimmed
      exact (congrArg isSampleLine trimmed).trans (Sample.isSampleLine_text named)

/-- No line of an exposition is refused, if all names in it are names. -/
theorem firstInvalid?_exposition {families : List Family}
    (named : ∀ line ∈ families.flatMap Family.lines, line.Named) :
    Exposition.firstInvalid? (Text.lines (exposition families)) = none := by
  rw [Exposition.firstInvalid?, Option.map_eq_none_iff, List.findIdx?_eq_none_iff,
    lines_exposition named]
  intro line there
  rw [List.mem_append, List.mem_map, List.mem_singleton] at there
  rcases there with ⟨written, member, rfl⟩ | rfl
  · cases must : Exposition.mustBeSample written.text with
    | false => rfl
    | true =>
        rw [mustBeSample_text (named written member) must]
        rfl
  · rfl

end Telemetry
