import Mathlib.Data.List.Basic
import Mathlib.Tactic.MkIffOfInductiveProp
import Telemetry.Exposition.SampleSyntax
import Telemetry.Proofs.Double.RoundTrip

/-!
# Spellings of samples

A *spelling* is a sample line in parts: the names, the numbers, the texts between
quotes, and the blanks between all of these.  `Spelling.Valid` says which parts may
stand where, and `Spelling.text` puts them together.  A line that is spelled in a
valid way is accepted by the line check (`isSampleLine_text`).
-/

namespace Telemetry

open Text

/-- What is said of the two parts that may be given is decided by looking at them. -/
instance decidableForallSome {α β : Type} {p : α → β → Prop} [∀ a b, Decidable (p a b)] :
    ∀ given : Option (α × β), Decidable (∀ a b, given = some (a, b) → p a b)
  | none => isTrue nofun
  | some (a, b) =>
      decidable_of_iff (p a b)
        ⟨fun h _ _ equal => by cases equal; exact h, fun h => h a b rfl⟩

/-! ## Parts -/

/-- Whether a text is a name of some characters. -/
@[mk_iff]
structure IsName (allowed : Char → Bool) (name : List Char) : Prop where
  /-- There is a first character. -/
  nonempty : name ≠ []
  /-- It is no digit. -/
  start : name.head?.any isDigit = false
  /-- All characters are allowed. -/
  all : ∀ c ∈ name, allowed c = true

instance (allowed : Char → Bool) (name : List Char) : Decidable (IsName allowed name) :=
  decidable_of_iff _ (isName_iff allowed name).symm

/-- Whether a text has blanks only. -/
def IsGap (s : List Char) : Prop := ∀ c ∈ s, isBlank c = true

instance (s : List Char) : Decidable (IsGap s) :=
  inferInstanceAs (Decidable (∀ c ∈ s, isBlank c = true))

/-- Whether a text may stand between quotes: a quote in it has a backslash before it. -/
def isQuoted : List Char → Bool
  | [] => true
  | '"' :: _ => false
  | '\\' :: s =>
    match s with
    | [] => false
    | _ :: t => isQuoted t
  | _ :: s => isQuoted s

/-- A label as it is spelled. -/
structure LabelSpelling where
  /-- The blanks before the name. -/
  before : List Char := []
  /-- The name. -/
  name : List Char
  /-- The blanks after the name. -/
  afterName : List Char := []
  /-- The blanks before the first quote. -/
  beforeQuote : List Char := []
  /-- The text between the quotes. -/
  quoted : List Char
  /-- The blanks after the last quote. -/
  after : List Char := []

namespace LabelSpelling

/-- The label on its line. -/
def text (l : LabelSpelling) : List Char :=
  l.before ++ (l.name ++ (l.afterName ++ '=' :: (l.beforeQuote ++ '"' :: (l.quoted ++
    '"' :: l.after))))

/-- Whether the parts are what they are called. -/
@[mk_iff]
structure Valid (l : LabelSpelling) : Prop where
  before : IsGap l.before
  name : IsName isLabelChar l.name
  afterName : IsGap l.afterName
  beforeQuote : IsGap l.beforeQuote
  quoted : isQuoted l.quoted = true
  after : IsGap l.after

instance (l : LabelSpelling) : Decidable l.Valid := decidable_of_iff _ (valid_iff l).symm

end LabelSpelling

/-- A sample line in parts. -/
structure Spelling where
  /-- The name. -/
  name : List Char
  /-- The blanks after the name. -/
  gap : List Char := []
  /-- The labels in braces if there are braces, and what stands between the last label and the
  closing brace. -/
  braces : Option (List LabelSpelling × List Char) := none
  /-- The blanks before the number. -/
  space : List Char := [' ']
  /-- The number. -/
  number : List Char
  /-- The time stamp if there is one, after some blanks. -/
  stamp : Option (List Char × List Char) := none

namespace Spelling

/-- The text between braces. -/
def inner (labels : List LabelSpelling) (closing : List Char) : List Char :=
  List.intercalate [','] (labels.map (·.text)) ++ closing

/-- The labels on the line. -/
def bracesText : Option (List LabelSpelling × List Char) → List Char
  | none => []
  | some (labels, closing) => '{' :: inner labels closing ++ ['}']

theorem bracesText_append (labels : List LabelSpelling) (closing rest : List Char) :
    bracesText (some (labels, closing)) ++ rest = '{' :: (inner labels closing ++ '}' :: rest) := by
  rw [bracesText, List.cons_append, List.cons_append, List.append_assoc, List.singleton_append]

/-- The time stamp on the line. -/
def stampText : Option (List Char × List Char) → List Char
  | none => []
  | some (blanks, stamp) => blanks ++ stamp

/-- The line after the name. -/
def rest (s : Spelling) : List Char :=
  s.gap ++ (bracesText s.braces ++ (s.space ++ (s.number ++ stampText s.stamp)))

/-- The line. -/
def text (s : Spelling) : List Char := s.name ++ s.rest

/-- Whether labels in braces are spelled in a valid way. -/
@[mk_iff]
structure ValidBraces (labels : List LabelSpelling) (closing : List Char) : Prop where
  /-- Each label is. -/
  each : ∀ l ∈ labels, l.Valid
  /-- After the last label there may be a comma and blanks. -/
  closing : if labels = [] then IsGap closing
    else closing = [] ∨ ∃ blanks, IsGap blanks ∧ closing = ',' :: blanks

instance (closing : List Char) :
    Decidable (∃ blanks, IsGap blanks ∧ closing = ',' :: blanks) :=
  decidable_of_iff (closing.head? = some ',' ∧ IsGap closing.tail) <| by
    constructor
    · rintro ⟨comma, blank⟩
      exact ⟨closing.tail, blank, List.eq_cons_of_mem_head? comma⟩
    · rintro ⟨blanks, blank, rfl⟩
      exact ⟨rfl, blank⟩

instance (labels : List LabelSpelling) (closing : List Char) :
    Decidable (ValidBraces labels closing) :=
  decidable_of_iff _ (validBraces_iff labels closing).symm

/-- Whether the parts are what they are called. -/
@[mk_iff]
structure Valid (s : Spelling) : Prop where
  /-- The name is one. -/
  name : IsName isNameChar s.name
  /-- There are blanks after it only. -/
  gap : IsGap s.gap
  /-- The name does not go on. -/
  ends : s.rest.head?.any isNameChar = false
  /-- So are the labels. -/
  braces : ∀ labels closing, s.braces = some (labels, closing) → ValidBraces labels closing
  /-- There are blanks before the number only. -/
  space : IsGap s.space
  /-- The number is one word. -/
  word : ∀ c ∈ s.number, isBlank c = false
  /-- It is a number. -/
  number : (Double.read? s.number).isSome = true
  /-- The stamp is a whole number after some blanks. -/
  stamp : ∀ blanks stamp, s.stamp = some (blanks, stamp) → blanks ≠ [] ∧ IsGap blanks ∧
    (∀ c ∈ stamp, isBlank c = false) ∧ (readInt64? stamp).isSome = true

instance (s : Spelling) : Decidable s.Valid := decidable_of_iff _ (valid_iff s).symm

end Spelling

/-! ## Characters -/

theorem toNat_lt_of_isNameChar {c : Char} (h : isNameChar c = true) : c.toNat < 128 := by
  delta isNameChar Char.isAlphanum Char.isAlpha Char.isUpper Char.isLower Char.isDigit at h
  simp only [Bool.or_eq_true, Bool.and_eq_true, decide_eq_true_eq] at h
  rcases h with ((((⟨-, h⟩ | ⟨-, h⟩) | ⟨-, h⟩) | rfl) | rfl)
  · exact Nat.lt_of_le_of_lt h (by decide)
  · exact Nat.lt_of_le_of_lt h (by decide)
  · exact Nat.lt_of_le_of_lt h (by decide)
  · decide
  · decide

/-- What holds of the characters of names is decided by looking at each of them. -/
theorem of_isNameChar (P : Char → Prop)
    (each : ∀ n < 128, isNameChar (Char.ofNat n) = true → P (Char.ofNat n)) {c : Char}
    (h : isNameChar c = true) : P c := by
  have code := each c.toNat (toNat_lt_of_isNameChar h)
  rw [Char.ofNat_toNat] at code
  exact code h

theorem isNameChar_of_isLabelChar {c : Char} (h : isLabelChar c = true) : isNameChar c = true := by
  rw [isNameChar, Bool.or_eq_true]
  exact .inl h

theorem not_isBlank_of_isNameChar {c : Char} (h : isNameChar c = true) : isBlank c = false :=
  of_isNameChar (isBlank · = false) (by decide) h

theorem not_isNameChar_of_isBlank {c : Char} (h : isBlank c = true) : isNameChar c = false := by
  cases name : isNameChar c with
  | false => rfl
  | true =>
      rw [not_isBlank_of_isNameChar name] at h
      cases h

theorem IsName.head {allowed : Char → Bool} {name : List Char} (h : IsName allowed name) :
    ∃ c rest, name = c :: rest ∧ allowed c = true := by
  cases name with
  | nil => exact absurd rfl h.nonempty
  | cons c rest => exact ⟨c, rest, rfl, h.all c List.mem_cons_self⟩

/-! ## Scanning -/

theorem splitName_append {allowed : Char → Bool} {name rest : List Char}
    (h : IsName allowed name) (stop : rest.head?.any allowed = false) :
    splitName allowed (name ++ rest) = (name, rest) := by
  have start : (name ++ rest).head?.any isDigit = false := by
    obtain ⟨c, more, rfl, -⟩ := h.head
    exact h.start
  rw [splitName, start, takeWhile_append_stop h.all stop, dropWhile_append_stop h.all stop]
  rfl

theorem afterQuoted?_append (rest : List Char) {quoted : List Char}
    (valid : isQuoted quoted = true) : afterQuoted? (quoted ++ '"' :: rest) = some rest := by
  fun_induction isQuoted quoted with
  | case1 => rfl
  | case2 => cases valid
  | case3 => cases valid
  | case4 c s ih => exact ih valid
  | case5 c s notQuote notBackslash ih =>
      rw [List.cons_append, afterQuoted?]
      · exact ih valid
      · exact notQuote
      · exact notBackslash

theorem trimStart_gap {gap : List Char} (blank : IsGap gap) {c : Char} (start : isBlank c = false)
    (rest : List Char) : trimStart (gap ++ c :: rest) = c :: rest :=
  trimStart_append_of_blanks blank start

theorem head?_gap_append {gap : List Char} (blank : IsGap gap) {c : Char}
    (stop : isLabelChar c = false) (rest : List Char) :
    (gap ++ c :: rest).head?.any isLabelChar = false := by
  cases gap with
  | nil => exact stop
  | cons d gap =>
      cases name : isLabelChar d with
      | false => exact name
      | true =>
          have clash := not_isNameChar_of_isBlank (blank d List.mem_cons_self)
          rw [isNameChar_of_isLabelChar name] at clash
          cases clash

namespace LabelSpelling

theorem afterLabel?_text {l : LabelSpelling} (valid : l.Valid) {rest : List Char} :
    afterLabel? (trimStart (l.text ++ rest)) = some (l.after ++ rest) := by
  have trimmed : trimStart (l.text ++ rest) = l.name ++ (l.afterName ++ '=' :: (l.beforeQuote ++
      '"' :: (l.quoted ++ '"' :: (l.after ++ rest)))) := by
    rw [text]
    simp only [List.append_assoc, List.cons_append]
    obtain ⟨c, more, equal, allowed⟩ := valid.name.head
    rw [equal]
    exact trimStart_gap valid.before
      (not_isBlank_of_isNameChar (isNameChar_of_isLabelChar allowed)) _
  have nonempty : l.name.isEmpty = false := by
    obtain ⟨c, more, equal, -⟩ := valid.name.head
    rw [equal]
    rfl
  rw [trimmed, afterLabel?, splitName_append valid.name
    (head?_gap_append valid.afterName (by decide) _)]
  dsimp only
  rw [nonempty, trimStart_gap valid.afterName (by decide)]
  change ((after? '"' (trimStart (l.beforeQuote ++ _))).bind fun quoted => afterQuoted? quoted) = _
  rw [trimStart_gap valid.beforeQuote (by decide)]
  exact afterQuoted?_append _ valid.quoted

/-- A label and what follows it does not start with the closing brace. -/
theorem trimStart_text {l : LabelSpelling} (valid : l.Valid) (rest : List Char) :
    ∃ c more, trimStart (l.text ++ rest) = c :: more ∧ c ≠ '}' := by
  obtain ⟨c, more, equal, allowed⟩ := valid.name.head
  rw [text, equal]
  simp only [List.append_assoc, List.cons_append]
  refine ⟨c, _, trimStart_gap valid.before
    (not_isBlank_of_isNameChar (isNameChar_of_isLabelChar allowed)) _, ?_⟩
  exact of_isNameChar (· ≠ '}') (by decide) (isNameChar_of_isLabelChar allowed)

end LabelSpelling

/-! ## Lines -/

theorem afterLabels?_closing {closing : List Char} (blank : IsGap closing) (rest : List Char) :
    afterLabels? (closing ++ '}' :: rest) = some rest := by
  have trimmed := trimStart_gap (c := '}') blank (by decide) rest
  rw [afterLabels?]
  split
  next tail equal =>
    rw [trimmed] at equal
    exact congrArg some (List.cons.inj equal).2.symm
  next other => exact absurd trimmed (other rest)

/-- A label is followed by a comma and more labels, or by the closing brace. -/
theorem afterLabels?_label {l : LabelSpelling} (valid : l.Valid) {d : Char}
    (start : isBlank d = false) (rest : List Char) :
    afterLabels? (l.text ++ d :: rest) =
      if d = ',' then afterLabels? rest else if d = '}' then some rest else none := by
  obtain ⟨c, more, trimmed, opened⟩ := LabelSpelling.trimStart_text valid (d :: rest)
  have label : afterLabel? (trimStart (l.text ++ d :: rest)) = some (l.after ++ d :: rest) :=
    LabelSpelling.afterLabel?_text valid
  have ends := trimStart_gap valid.after start rest
  rw [afterLabels?]
  split
  next equal =>
    rw [trimmed] at equal
    exact absurd (List.cons.inj equal).1 opened
  next =>
    split
    next none_ =>
      rw [label] at none_
      cases none_
    next u some_ =>
      rw [label] at some_
      cases some_
      split
      next v equal =>
        rw [ends] at equal
        obtain ⟨rfl, rfl⟩ := List.cons.inj equal
        rfl
      next v equal =>
        rw [ends] at equal
        obtain ⟨rfl, rfl⟩ := List.cons.inj equal
        rfl
      next notComma notBrace =>
        rw [if_neg, if_neg]
        · rintro rfl
          exact notBrace rest ends
        · rintro rfl
          exact notComma rest ends

namespace Spelling

theorem afterLabels?_inner (rest : List Char) {closing : List Char} :
    ∀ {labels : List LabelSpelling}, ValidBraces labels closing →
      afterLabels? (inner labels closing ++ '}' :: rest) = some rest
  | [], valid => afterLabels?_closing valid.closing rest
  | [l], valid => by
      have label := valid.each l List.mem_cons_self
      rw [inner, List.map_singleton, List.intercalate_singleton, List.append_assoc]
      rcases valid.closing with rfl | ⟨blanks, blank, rfl⟩
      · exact afterLabels?_label label (by decide) rest
      · rw [List.cons_append, afterLabels?_label label (by decide)]
        exact afterLabels?_closing blank rest
  | l :: next :: labels, valid => by
      have others : ValidBraces (next :: labels) closing :=
        ⟨fun l' there => valid.each l' (List.mem_cons_of_mem l there), valid.closing⟩
      have split : inner (l :: next :: labels) closing ++ '}' :: rest =
          l.text ++ ',' :: (inner (next :: labels) closing ++ '}' :: rest) := by
        rw [inner, List.map_cons, List.map_cons, List.intercalate_cons_cons, inner, List.map_cons]
        simp only [List.append_assoc, List.cons_append, List.nil_append]
      rw [split, afterLabels?_label (valid.each l List.mem_cons_self) (by decide)]
      exact afterLabels?_inner rest others

theorem number_ne_nil {s : Spelling} (valid : s.Valid) : s.number ≠ [] := by
  intro empty
  have number := valid.number
  rw [empty, Double.read?_nil] at number
  cases number

theorem isSampleTail_text {s : Spelling} (valid : s.Valid) {gap : List Char} (blank : IsGap gap) :
    isSampleTail (gap ++ (s.number ++ stampText s.stamp)) = true := by
  rw [isSampleTail, words_append_of_blanks _ blank]
  cases stamped : s.stamp with
  | none =>
      rw [stampText, List.append_nil, words_of_word (number_ne_nil valid) valid.word]
      exact valid.number
  | some parts =>
      obtain ⟨blanks, stamp⟩ := parts
      obtain ⟨nonempty, blank, word, whole⟩ := valid.stamp blanks stamp stamped
      cases blanks with
      | nil => exact absurd rfl nonempty
      | cons c blanks =>
          have given : stamp ≠ [] := by
            rintro rfl
            cases whole
          rw [stampText, List.cons_append, words_append_cons (number_ne_nil valid) valid.word
            (blank c List.mem_cons_self), words_append_of_blanks stamp fun c' there =>
            blank c' (List.mem_cons_of_mem c there), words_of_word given word]
          exact Bool.and_eq_true_iff.mpr ⟨valid.number, whole⟩

theorem head_number {s : Spelling} (valid : s.Valid) :
    ∃ c more, s.number = c :: more ∧ isBlank c = false ∧ c ≠ '{' := by
  cases equal : s.number with
  | nil => exact absurd equal (number_ne_nil valid)
  | cons c more =>
      refine ⟨c, more, rfl, valid.word c (equal ▸ List.mem_cons_self), ?_⟩
      rintro rfl
      have number := valid.number
      rw [equal, Double.read?_brace] at number
      cases number

/-- A line that is spelled in a valid way is accepted. -/
theorem isSampleLine_text {s : Spelling} (valid : s.Valid) : isSampleLine s.text = true := by
  obtain ⟨first, more, name, -⟩ := valid.name.head
  have given : s.name.isEmpty = false := by
    rw [name]
    rfl
  rw [isSampleLine, text, splitName_append valid.name valid.ends]
  dsimp only
  rw [given, rest]
  cases braces : s.braces with
  | none =>
      obtain ⟨c, more, number, start, unbraced⟩ := head_number valid
      have tail : isSampleTail (s.number ++ stampText s.stamp) = true :=
        isSampleTail_text valid (fun c (there : c ∈ []) => nomatch there)
      have blank : IsGap (s.gap ++ s.space) := fun c there =>
        (List.mem_append.mp there).elim (valid.gap c) (valid.space c)
      rw [number] at tail
      rw [bracesText, List.nil_append, ← List.append_assoc, number, List.cons_append,
        trimStart_gap blank start]
      split
      next equal => exact absurd (List.cons.inj equal).1 unbraced
      next => exact tail
  | some parts =>
      obtain ⟨labels, closing⟩ := parts
      have after := afterLabels?_inner (s.space ++ (s.number ++ stampText s.stamp))
        (valid.braces labels closing braces)
      rw [bracesText_append, trimStart_gap valid.gap (by decide)]
      exact (congrArg (Option.any isSampleTail) after).trans (isSampleTail_text valid valid.space)

/-- A line that is spelled in a valid way has no blanks at its ends. -/
theorem trim_text {s : Spelling} (valid : s.Valid) : trim s.text = s.text := by
  obtain ⟨c, more, name, allowed⟩ := valid.name.head
  have start : s.text.head?.any isBlank = false := by
    rw [text, name]
    exact not_isBlank_of_isNameChar allowed
  obtain ⟨front, word, ends, nonempty, whole⟩ : ∃ front word, s.text = front ++ word ∧ word ≠ [] ∧
      ∀ c ∈ word, isBlank c = false := by
    rw [text, rest]
    cases stamped : s.stamp with
    | none =>
        refine ⟨s.name ++ (s.gap ++ (bracesText s.braces ++ s.space)), s.number, ?_,
          number_ne_nil valid, valid.word⟩
        simp only [stampText, List.append_nil, List.append_assoc]
    | some parts =>
        obtain ⟨blanks, stamp⟩ := parts
        obtain ⟨-, -, word, whole⟩ := valid.stamp blanks stamp stamped
        refine ⟨s.name ++ (s.gap ++ (bracesText s.braces ++ (s.space ++ (s.number ++ blanks)))),
          stamp, ?_, ?_, word⟩
        · simp only [stampText, List.append_assoc]
        · rintro rfl
          cases whole
  refine trim_of_ends start ?_
  rw [ends, List.getLast?_append]
  cases last : word.getLast? with
  | none => exact absurd (List.getLast?_eq_none_iff.mp last) nonempty
  | some d => exact whole d (List.mem_of_getLast? last)

end Spelling

end Telemetry
