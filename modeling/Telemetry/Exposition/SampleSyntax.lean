import Telemetry.Double.Decimal
import Telemetry.Text.Blank

/-!
# Sample lines

A sample line is a metric name, labels in braces, a number and a time stamp:

    name{label="value", ...} number stamp

The braces may be left out, and so may the time stamp, which is a whole number of
64 bits.  Blanks may stand between all parts, and must stand between the number
and the stamp.  A name does not start with a digit.  Inside quotes a backslash
takes the next character with it, and a comma may follow the last label.

`isSampleLine` decides whether a line without blanks at its ends has this form.
The scanners it is made of return what follows the part they take, and each takes
at least one character, which is why they come to an end.
-/

namespace Telemetry

open Text (isBlank trimStart words)

/-- A character of a metric name. -/
def isNameChar (c : Char) : Bool := c.isAlphanum || c = '_' || c = ':'

/-- A character of a label name. -/
def isLabelChar (c : Char) : Bool := c.isAlphanum || c = '_'

/-- The longest name at the front and what follows it.  No name starts with a digit. -/
def splitName (allowed : Char → Bool) (s : List Char) : List Char × List Char :=
  if s.head?.any isDigit then ([], s) else (s.takeWhile allowed, s.dropWhile allowed)

/-- What follows a given character. -/
def after? (c : Char) : List Char → Option (List Char)
  | [] => none
  | d :: s => if d = c then some s else none

/-- What follows the quote that ends a quoted text. -/
def afterQuoted? : List Char → Option (List Char)
  | [] => none
  | '"' :: s => some s
  | '\\' :: s =>
    match s with
    | [] => none
    | _ :: t => afterQuoted? t
  | _ :: s => afterQuoted? s

/-- What follows a label and its value. -/
def afterLabel? (s : List Char) : Option (List Char) :=
  let (name, rest) := splitName isLabelChar s
  if name.isEmpty then none
  else do
    let value ← after? '=' (trimStart rest)
    let quoted ← after? '"' (trimStart value)
    afterQuoted? quoted

/-! ## Scanners come to an end -/

theorem length_trimStart_le (s : List Char) : (trimStart s).length ≤ s.length :=
  (List.dropWhile_sublist _).length_le

theorem length_lt_of_after? {c : Char} {s t : List Char} (h : after? c s = some t) :
    t.length < s.length := by
  cases s with
  | nil => simp [after?] at h
  | cons d s =>
    simp only [after?, Option.ite_none_right_eq_some, Option.some.injEq] at h
    simp [h.2]

theorem length_lt_of_afterQuoted? {s t : List Char} (h : afterQuoted? s = some t) :
    t.length < s.length := by
  fun_induction afterQuoted? s with
  | case1 => simp at h
  | case2 s => simp_all
  | case3 => simp at h
  | case4 c r ih =>
    have := ih h
    simp only [List.length_cons]
    omega
  | case5 c s _ _ ih =>
    have := ih h
    simp only [List.length_cons]
    omega

theorem length_splitName_le (allowed : Char → Bool) (s : List Char) :
    (splitName allowed s).2.length ≤ s.length := by
  unfold splitName
  split
  · exact Nat.le_refl _
  · exact (List.dropWhile_sublist _).length_le

theorem length_lt_of_afterLabel? {s t : List Char} (h : afterLabel? s = some t) :
    t.length < s.length := by
  simp only [afterLabel?, bind, Option.bind_eq_some_iff, Option.ite_none_left_eq_some] at h
  obtain ⟨_, a, ha, b, hb, ht⟩ := h
  have h1 := length_lt_of_after? ha
  have h2 := length_lt_of_after? hb
  have h3 := length_lt_of_afterQuoted? ht
  have h4 := length_trimStart_le (splitName isLabelChar s).2
  have h5 := length_trimStart_le a
  have h6 := length_splitName_le isLabelChar s
  omega

/-! ## The whole line -/

/-- What follows the brace that closes some labels. -/
def afterLabels? (s : List Char) : Option (List Char) :=
  match _closed : trimStart s with
  | '}' :: rest => some rest
  | t =>
    match _label : afterLabel? t with
    | none => none
    | some u =>
      match _comma : trimStart u with
      | ',' :: v => afterLabels? v
      | '}' :: rest => some rest
      | _ => none
termination_by s.length
decreasing_by
  have h1 := length_lt_of_afterLabel? _label
  have h2 := length_trimStart_le u
  have h3 := length_trimStart_le s
  simp only [_comma, List.length_cons] at h2
  simp only [_closed] at h3
  omega

/-- The number and the time stamp that end a sample line. -/
def isSampleTail (s : List Char) : Bool :=
  match words s with
  | [number] => (Double.read? number).isSome
  | [number, stamp] => (Double.read? number).isSome && (readInt64? stamp).isSome
  | _ => false

/-- Whether a line has the form of a sample. -/
def isSampleLine (s : List Char) : Bool :=
  let (name, rest) := splitName isNameChar s
  !name.isEmpty &&
    match trimStart rest with
    | '{' :: labels => (afterLabels? labels).any isSampleTail
    | t => isSampleTail t

end Telemetry
