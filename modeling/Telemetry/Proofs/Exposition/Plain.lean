import Mathlib.Data.List.Basic
import Telemetry.Exposition.Entry
import Telemetry.Exposition.Text
import Telemetry.Proofs.Exposition.Spelling

/-!
# Plain spellings

The line check and the reader of entries go over a line in ways of their own, and
they agree where a sample is spelled in a *plain* way: no colon in the name, braces
directly after it and not empty, no blanks around labels, and no commas, equals
signs, closing braces, quotes or escapes in their values.  An entry read from a
plain line has what was spelled (`ofLine?_of_plain`).
-/

namespace Telemetry

open Text

/-! ## Plain lines -/

/-- The text that is meant by what stands between quotes. -/
def unescape : List Char → List Char
  | '\\' :: '\\' :: s => '\\' :: unescape s
  | '\\' :: '"' :: s => '"' :: unescape s
  | '\\' :: 'n' :: s => '\n' :: unescape s
  | c :: s => c :: unescape s
  | [] => []

/-- Whether a character may stand in the value of a label that is spelled in a plain way. -/
def isPlainChar (c : Char) : Bool := !(c = ',' || c = '=' || c = '}' || c = '"')

/-- Whether a label is its name, an equals sign and a plain value in quotes. -/
@[mk_iff]
structure LabelSpelling.Plain (l : LabelSpelling) : Prop where
  before : l.before = []
  name : IsName isLabelChar l.name
  afterName : l.afterName = []
  beforeQuote : l.beforeQuote = []
  quoted : ∀ c ∈ l.quoted, isPlainChar c = true
  unescaped : unescape l.quoted = l.quoted
  after : l.after = []

instance (l : LabelSpelling) : Decidable l.Plain :=
  decidable_of_iff _ (LabelSpelling.plain_iff l).symm

/-- The label that is meant. -/
def LabelSpelling.label (l : LabelSpelling) : String × String :=
  (String.ofList l.name, String.ofList (unescape l.quoted))

namespace Spelling

/-- The labels as they stand on the line. -/
def labels (s : Spelling) : List LabelSpelling := (s.braces.map Prod.fst).getD []

/-- The labels that are meant. -/
def labelSet (s : Spelling) : Labels := .ofList (s.labels.map (·.label))

/-- Whether a line is spelled in a plain way. -/
@[mk_iff]
structure Plain (s : Spelling) : Prop where
  /-- There is no colon in the name. -/
  name : IsName isLabelChar s.name
  /-- Braces stand directly after the name, and there is something in them. -/
  braces : ∀ labels closing, s.braces = some (labels, closing) →
    s.gap = [] ∧ inner labels closing ≠ []
  /-- The labels are plain. -/
  labels : ∀ l ∈ s.labels, l.Plain
  /-- There is a blank before the number. -/
  space : s.gap ++ s.space ≠ []

instance (s : Spelling) : Decidable s.Plain := decidable_of_iff _ (plain_iff s).symm

end Spelling

/-! ## Characters -/

theorem not_isWord_of_isBlank {c : Char} (h : isBlank c = true) : isWord c = false := by
  have low : ∀ n < 14, isWord (Char.ofNat n) = false := by decide
  have high : ∀ n < 11, isWord (Char.ofNat (0x2000 + n)) = false := by decide +kernel
  have ofLow : c.toNat < 14 → isWord c = false := by
    intro bound
    rw [← Char.ofNat_toNat c]
    exact low _ bound
  have ofHigh : 0x2000 ≤ c.toNat → c.toNat ≤ 0x200a → isWord c = false := by
    intro lower upper
    have word := high (c.toNat - 0x2000) (by omega)
    rw [Nat.add_sub_cancel' lower, Char.ofNat_toNat] at word
    exact word
  simp only [isBlank, Bool.or_eq_true, Bool.and_eq_true, decide_eq_true_eq] at h
  rcases h with
    (((((((((rfl | ⟨-, h⟩) | rfl) | rfl) | rfl) | ⟨h, h'⟩) | rfl) | rfl) | rfl) | rfl) | rfl
  · decide
  · exact ofLow (Nat.lt_succ_of_le h)
  · decide +kernel
  · decide +kernel
  · decide +kernel
  · exact ofHigh h h'
  all_goals decide +kernel

theorem isWord_of_isLabelChar {c : Char} (h : isLabelChar c = true) : isWord c = true := by
  rw [isWord, Bool.or_eq_true]
  exact .inl h

theorem isPlainChar_of_isLabelChar {c : Char} (h : isLabelChar c = true) : isPlainChar c = true :=
  of_isNameChar (isPlainChar · = true) (by decide) (isNameChar_of_isLabelChar h)

theorem ne_of_isPlainChar {c : Char} (h : isPlainChar c = true) :
    c ≠ ',' ∧ c ≠ '=' ∧ c ≠ '}' ∧ c ≠ '"' := by
  refine ⟨?_, ?_, ?_, ?_⟩
  all_goals
    rintro rfl
    revert h
    decide

/-! ## Labels -/

/-- A text without backslashes is what is meant. -/
theorem unescape_of_ne : ∀ {s : List Char}, (∀ c ∈ s, c ≠ '\\') → unescape s = s
  | [], _ => by rw [unescape]
  | c :: s, plain => by
      have other := plain c List.mem_cons_self
      rw [unescape, unescape_of_ne fun c' there => plain c' (List.mem_cons_of_mem c there)]
      all_goals exact fun _ equal => absurd equal other

theorem unquote_of_plain {s : List Char} (plain : ∀ c ∈ s, isPlainChar c = true) :
    Entry.unquote ('"' :: (s ++ ['"'])) = s := by
  have noQuote : ∀ c ∈ s, c ≠ '"' := fun c there => (ne_of_isPlainChar (plain c there)).2.2.2
  rw [Entry.unquote, List.dropWhile_cons_of_pos (by decide)]
  cases s with
  | nil => rfl
  | cons c s =>
      have start : ((c :: s) ++ ['"']).dropWhile (· = '"') = (c :: s) ++ ['"'] := by
        rw [List.cons_append, List.dropWhile_cons_of_neg]
        simpa using noQuote c List.mem_cons_self
      have ends : ((c :: s).reverse).dropWhile (· = '"') = (c :: s).reverse := by
        cases reversed : (c :: s).reverse with
        | nil => rfl
        | cons d more =>
            have there : d ∈ c :: s := by
              rw [← List.mem_reverse, reversed]
              exact List.mem_cons_self
            rw [List.dropWhile_cons_of_neg]
            simpa using noQuote d there
      rw [start, List.reverse_append, List.reverse_singleton, List.singleton_append,
        List.dropWhile_cons_of_pos (by decide), ends, List.reverse_reverse]

namespace LabelSpelling

theorem text_of_plain {l : LabelSpelling} (plain : l.Plain) :
    l.text = l.name ++ '=' :: '"' :: (l.quoted ++ ['"']) := by
  rw [text, plain.before, plain.afterName, plain.beforeQuote, plain.after]
  rfl

theorem label?_of_plain {l : LabelSpelling} (plain : l.Plain) :
    Entry.label? l.text = some l.label := by
  have name : ∀ c ∈ l.name, decide (c = '=') = false := fun c there => by
    simpa using (ne_of_isPlainChar (isPlainChar_of_isLabelChar (plain.name.all c there))).2.1
  have value : ∀ c ∈ '"' :: (l.quoted ++ ['"']), decide (c = '=') = false := by
    intro c there
    rw [List.mem_cons, List.mem_append, List.mem_singleton] at there
    rcases there with rfl | there | rfl
    · decide
    · simpa using (ne_of_isPlainChar (plain.quoted c there)).2.1
    · decide
  have given : l.name.isEmpty = false := by
    obtain ⟨c, more, equal, -⟩ := plain.name.head
    rw [equal]
    rfl
  rw [Entry.label?, text_of_plain plain, splitAt_append_cons (by decide) _ name,
    splitAt_of_none value]
  dsimp only
  rw [given, unquote_of_plain plain.quoted, label, plain.unescaped]
  rfl

/-- A plain label holds neither a comma nor a closing brace. -/
theorem ne_of_mem_text {l : LabelSpelling} (plain : l.Plain) {c : Char} (there : c ∈ l.text) :
    c ≠ ',' ∧ c ≠ '}' := by
  rw [text_of_plain plain, List.mem_append, List.mem_cons, List.mem_cons, List.mem_append,
    List.mem_singleton] at there
  have ofPlain : isPlainChar c = true → c ≠ ',' ∧ c ≠ '}' := fun h =>
    ⟨(ne_of_isPlainChar h).1, (ne_of_isPlainChar h).2.2.1⟩
  rcases there with there | rfl | rfl | there | rfl
  · exact ofPlain (isPlainChar_of_isLabelChar (plain.name.all c there))
  · decide
  · decide
  · exact ofPlain (plain.quoted c there)
  · decide

end LabelSpelling

namespace Spelling

theorem label?_of_gap {gap : List Char} (blank : IsGap gap) : Entry.label? gap = none := by
  have noSign : ∀ c ∈ gap, decide (c = '=') = false := by
    intro c there
    rw [decide_eq_false_iff_not]
    rintro rfl
    exact absurd (blank '=' there) (by decide)
  rw [Entry.label?, splitAt_of_none noSign]

/-- The labels of a plain line are those that are spelled. -/
theorem labels_inner {labels : List LabelSpelling} {closing : List Char}
    (plain : ∀ l ∈ labels, l.Plain) (valid : ValidBraces labels closing) :
    Entry.labels (inner labels closing) = .ofList (labels.map (·.label)) := by
  have noComma : ∀ {gap : List Char}, IsGap gap → ∀ c ∈ gap, decide (c = ',') = false := by
    intro gap blank c there
    rw [decide_eq_false_iff_not]
    rintro rfl
    exact absurd (blank ',' there) (by decide)
  have pieces : ∀ piece ∈ labels.map (·.text), ∀ c ∈ piece, decide (c = ',') = false := by
    intro piece there c among
    obtain ⟨l, label, rfl⟩ := List.mem_map.mp there
    simpa using (LabelSpelling.ne_of_mem_text (plain l label) among).1
  have read : (labels.map (·.text)).filterMap Entry.label? = labels.map (·.label) := by
    rw [List.filterMap_map, List.filterMap_eq_map_iff_forall_eq_some]
    exact fun l there => LabelSpelling.label?_of_plain (plain l there)
  rw [Entry.labels, inner]
  congr 1
  cases labels with
  | nil =>
      have blank : IsGap closing := valid.closing
      rw [List.map_nil, List.intercalate_nil, List.nil_append, splitAt_of_none (noComma blank),
        List.filterMap_cons_none (label?_of_gap blank)]
      rfl
  | cons l labels =>
      have nonempty : (l :: labels).map (·.text) ≠ [] := List.cons_ne_nil _ _
      rcases valid.closing with rfl | ⟨blanks, blank, rfl⟩
      · rw [List.append_nil, splitAt_intercalate (by decide) nonempty pieces, read]
      · rw [splitAt_append (by decide), splitAt_intercalate (by decide) nonempty pieces,
          splitAt_of_none (noComma blank), List.filterMap_append, read,
          List.filterMap_cons_none (label?_of_gap blank), List.filterMap_nil, List.append_nil]

/-! ## Entries -/

theorem ne_of_mem_inner {labels : List LabelSpelling} {closing : List Char}
    (plain : ∀ l ∈ labels, l.Plain) (valid : ValidBraces labels closing) {c : Char}
    (there : c ∈ inner labels closing) : c ≠ '}' := by
  have notBlank : isBlank c = true → c ≠ '}' := by
    rintro blank rfl
    exact absurd blank (by decide)
  rcases List.mem_append.mp there with there | there
  · rcases mem_intercalate there with rfl | ⟨piece, among, there⟩
    · decide
    · obtain ⟨l, label, rfl⟩ := List.mem_map.mp among
      exact (LabelSpelling.ne_of_mem_text (plain l label) there).2
  · have ends := valid.closing
    split at ends
    next => exact notBlank (ends c there)
    next =>
      rcases ends with rfl | ⟨blanks, blank, rfl⟩
      · cases there
      · rcases List.mem_cons.mp there with rfl | there
        · decide
        · exact notBlank (blank c there)

theorem afterKeyword?_of_name {keyword : String} {name rest : List Char}
    (h : IsName isLabelChar name) : Entry.afterKeyword? keyword (name ++ rest) = none := by
  obtain ⟨c, more, rfl, allowed⟩ := h.head
  have noMark : c ≠ '#' := of_isNameChar (· ≠ '#') (by decide) (isNameChar_of_isLabelChar allowed)
  rw [List.cons_append, Entry.afterKeyword?]
  exact fun s equal => noMark (List.cons.inj equal).1

theorem run?_append {allowed : Char → Bool} {run rest : List Char} (nonempty : run ≠ [])
    (all : ∀ c ∈ run, allowed c = true) (stop : rest.head?.any allowed = false) :
    Entry.run? allowed (run ++ rest) = some (String.ofList run, rest) := by
  have given : run.isEmpty = false := by
    cases run with
    | nil => exact absurd rfl nonempty
    | cons c run => rfl
  rw [Entry.run?, takeWhile_append_stop all stop, dropWhile_append_stop all stop, given]
  rfl

/-- The number of a plain line is read after the blanks before it. -/
theorem run?_number {s : Spelling} (valid : s.Valid) :
    Entry.run? (!isBlank ·) (s.number ++ stampText s.stamp) =
      some (String.ofList s.number, stampText s.stamp) := by
  refine run?_append (number_ne_nil valid) (fun c there => ?_) ?_
  · rw [valid.word c there]
    rfl
  · cases stamped : s.stamp with
    | none => rfl
    | some parts =>
        obtain ⟨blanks, stamp⟩ := parts
        obtain ⟨nonempty, blank, -, -⟩ := valid.stamp blanks stamp stamped
        cases blanks with
        | nil => exact absurd rfl nonempty
        | cons c blanks =>
            have first := blank c List.mem_cons_self
            change (!isBlank c) = false
            rw [first]
            rfl

theorem afterBlanks?_gap {gap : List Char} (nonempty : gap ≠ []) (blank : IsGap gap) {c : Char}
    (start : isBlank c = false) (rest : List Char) :
    Entry.afterBlanks? (gap ++ c :: rest) = some (c :: rest) := by
  have trimmed := trimStart_gap blank start rest
  cases gap with
  | nil => exact absurd rfl nonempty
  | cons d gap =>
      have first : ((d :: gap ++ c :: rest).head?.any isBlank) = true := blank d List.mem_cons_self
      rw [Entry.afterBlanks?, first, trimmed]
      rfl

/-- The entry that is read from a plain line. -/
def entry (s : Spelling) : Entry :=
  .sample (String.ofList s.name) (s.braces.map fun braces => inner braces.1 braces.2) s.number

theorem braces?_append {inner : List Char} (nonempty : inner ≠ [])
    (unclosed : ∀ c ∈ inner, c ≠ '}') (tail : List Char) :
    Entry.braces? ('{' :: (inner ++ '}' :: tail)) = some (inner, tail) := by
  have all : ∀ c ∈ inner, decide (c ≠ '}') = true := fun c there =>
    decide_eq_true (unclosed c there)
  have given : inner.isEmpty = false := by
    cases inner with
    | nil => exact absurd rfl nonempty
    | cons c inner => rfl
  have stop : ('}' :: tail).head?.any (fun c => decide (c ≠ '}')) = false := rfl
  rw [Entry.braces?, takeWhile_append_stop all stop, dropWhile_append_stop all stop, given]
  rfl

theorem sample?_of_parts {line rest tail numbers : List Char} {name number : String}
    {labels : Option (List Char)} {u : List Char}
    (named : Entry.run? isWord line = some (name, rest))
    (braced : Entry.braces? rest = labels.map (·, tail)) (unbraced : labels = none → tail = rest)
    (blanks : Entry.afterBlanks? tail = some numbers)
    (read : Entry.run? (!isBlank ·) numbers = some (number, u)) :
    Entry.sample? line = some (.sample name labels number.toList) := by
  unfold Entry.sample?
  rw [named]
  dsimp only [bind, Option.bind]
  rw [braced]
  cases labels with
  | none =>
      obtain rfl := unbraced rfl
      dsimp only [Option.map]
      rw [blanks]
      dsimp only
      rw [read]
      rfl
  | some labels =>
      dsimp only [Option.map]
      rw [blanks]
      dsimp only
      rw [read]
      rfl

theorem sample?_of_plain {s : Spelling} (valid : s.Valid) (plain : s.Plain) :
    Entry.sample? s.text = some s.entry := by
  obtain ⟨c, more, number, start, -⟩ := head_number valid
  have tail := run?_number valid
  rw [number, List.cons_append] at tail
  have name : ∀ {d : Char} {rest : List Char}, isWord d = false →
      Entry.run? isWord (s.name ++ d :: rest) = some (String.ofList s.name, d :: rest) :=
    fun stop => run?_append plain.name.nonempty
      (fun c there => isWord_of_isLabelChar (plain.name.all c there)) stop
  have entry_eq : s.entry = .sample (String.ofList s.name)
      (s.braces.map fun braces => inner braces.1 braces.2) (String.ofList (c :: more)).toList := by
    rw [entry, number, String.toList_ofList]
  rw [text, rest, number, List.cons_append, entry_eq]
  cases braces : s.braces with
  | none =>
      have gap : IsGap (s.gap ++ s.space) := fun c there =>
        (List.mem_append.mp there).elim (valid.gap c) (valid.space c)
      have blanks := afterBlanks?_gap plain.space gap start (more ++ stampText s.stamp)
      rw [bracesText, List.nil_append, ← List.append_assoc s.gap]
      cases equal : s.gap ++ s.space with
      | nil => exact absurd equal plain.space
      | cons d ds =>
          rw [equal] at gap blanks
          have blank : isBlank d = true := gap d List.mem_cons_self
          have unbraced : Entry.braces? (d :: (ds ++ c :: (more ++ stampText s.stamp))) = none := by
            rw [Entry.braces?]
            rintro t equal
            rw [(List.cons.inj equal).1] at blank
            exact absurd blank (by decide)
          exact sample?_of_parts (name (not_isWord_of_isBlank blank)) unbraced (fun _ => rfl)
            blanks tail
  | some parts =>
      obtain ⟨labels, closing⟩ := parts
      obtain ⟨direct, nonempty⟩ := plain.braces labels closing braces
      have each : ∀ l ∈ labels, l.Plain := fun l there => plain.labels l (by
        rw [Spelling.labels, braces]
        exact there)
      have space : s.space ≠ [] := by
        have blank := plain.space
        rwa [direct] at blank
      have brace : isWord '{' = false := by decide
      have braced := braces?_append nonempty
        (fun c there => ne_of_mem_inner each (valid.braces labels closing braces) there)
        (s.space ++ c :: (more ++ stampText s.stamp))
      rw [direct, List.nil_append, bracesText_append]
      exact sample?_of_parts (name brace) braced (fun none_ => absurd none_ (Option.some_ne_none _))
        (afterBlanks?_gap space valid.space start _) tail

/-- What is read from a plain line is what is spelled. -/
theorem ofLine?_of_plain {s : Spelling} (valid : s.Valid) (plain : s.Plain) {line : List Char}
    (spelled : trim line = s.text) : Entry.ofLine? line = some s.entry := by
  have noComment : ∀ keyword, Entry.afterKeyword? keyword s.text = none := fun keyword =>
    afterKeyword?_of_name plain.name
  have noHelp : Entry.help? s.text = none := by
    rw [Entry.help?, noComment]
    rfl
  have noType : Entry.type? s.text = none := by
    rw [Entry.type?, noComment]
    rfl
  rw [Entry.ofLine?, spelled, noHelp, noType, sample?_of_plain valid plain]
  rfl

/-- The labels that are read from a plain line are those that are meant. -/
theorem labels_of_plain {s : Spelling} (valid : s.Valid) (plain : s.Plain) :
    ((s.braces.map fun braces => inner braces.1 braces.2).map Entry.labels).getD .empty =
      s.labelSet := by
  have each := plain.labels
  rw [labelSet]
  rw [labels] at each ⊢
  cases braces : s.braces with
  | none => rfl
  | some parts =>
      rw [braces] at each
      exact labels_inner each (valid.braces parts.1 parts.2 braces)

end Spelling

end Telemetry
