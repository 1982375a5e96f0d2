import Telemetry.Json
import Telemetry.Double.Decimal
import Telemetry.Text.Hex

/-!
# Tokens

The text of a JSON value is cut into marks, words, numbers and quoted texts, with
spaces, tabs and line ends between them.  Each token takes at least one character
(`Token.length_lt_of_read?`), so the cutting comes to an end.

A control character may not stand in a quoted text.  An escape of four hexadecimal
digits denotes a code unit of sixteen bits; two of them in a row may make one
character, and a unit that belongs to no character leaves the text without a value.
-/

namespace Telemetry

/-- A piece of the text of a value. -/
inductive Token where
  | openArray
  | closeArray
  | openObject
  | closeObject
  | colon
  | comma
  | null
  | bool (value : Bool)
  | number (numeral : Numeral)
  | text (value : Option String)

namespace Token

/-! ## Quoted texts -/

/-- The code unit that four hexadecimal digits denote. -/
def unit? (a b c d : Char) : Option Nat := do
  let a ← Text.hexValue? a
  let b ← Text.hexValue? b
  let c ← Text.hexValue? c
  let d ← Text.hexValue? d
  return ((a * 16 + b) * 16 + c) * 16 + d

/-- The character of an escape with one letter. -/
def escape? : Char → Option Char
  | '"' => some '"'
  | '\\' => some '\\'
  | '/' => some '/'
  | 'b' => some '\x08'
  | 'f' => some '\x0c'
  | 'n' => some '\n'
  | 'r' => some '\r'
  | 't' => some '\t'
  | _ => none

/-- A character of a quoted text, or a code unit that an escape denotes. -/
inductive Piece where
  | char (c : Char)
  | unit (code : Nat)

/-- The pieces up to the closing quote, and what follows it. -/
def pieces? : List Char → Option (List Piece × List Char)
  | [] => none
  | '"' :: s => some ([], s)
  | '\\' :: 'u' :: a :: b :: c :: d :: s => do
    let code ← unit? a b c d
    let (ps, rest) ← pieces? s
    return (.unit code :: ps, rest)
  | '\\' :: e :: s => do
    let c ← escape? e
    let (ps, rest) ← pieces? s
    return (.char c :: ps, rest)
  | c :: s =>
    if c < ' ' || c = '\\' then none
    else do
      let (ps, rest) ← pieces? s
      return (.char c :: ps, rest)

/-- Whether a code unit starts a pair. -/
def isLead (code : Nat) : Bool := 0xd800 ≤ code && code < 0xdc00

/-- Whether a code unit ends a pair. -/
def isTrail (code : Nat) : Bool := 0xdc00 ≤ code && code < 0xe000

/-- The characters of some pieces, unless a code unit is left over. -/
def chars? : List Piece → Option (List Char)
  | [] => some []
  | .char c :: ps => (chars? ps).map (c :: ·)
  | .unit code :: ps =>
    if isLead code then
      match ps with
      | .unit trail :: ps =>
        if isTrail trail then
          let point := 0x10000 + (code - 0xd800) * 0x400 + (trail - 0xdc00)
          (chars? ps).map (Char.ofNat point :: ·)
        else none
      | _ => none
    else if isTrail code then none
    else (chars? ps).map (Char.ofNat code :: ·)

/-! ## Numbers -/

/-- The exponent of a number, and what follows it. -/
def exponent? (s : List Char) : Option (Option Int × List Char) :=
  match s with
  | [] => some (none, [])
  | c :: rest =>
    if c = 'e' ∨ c = 'E' then
      let (negative, body) := splitSign rest
      let digits := body.takeWhile isDigit
      if digits.isEmpty then none
      else
        let n : Int := natOfDigits digits
        some (some (if negative then -n else n), body.dropWhile isDigit)
    else some (none, s)

/-- The digits after a point, and what follows them. -/
def fraction? (s : List Char) : Option (List Char × List Char) :=
  match s with
  | '.' :: rest =>
    let digits := rest.takeWhile isDigit
    if digits.isEmpty then none else some (digits, rest.dropWhile isDigit)
  | _ => some ([], s)

/-- The digits before a point, which start with zero only if that is all, and what follows. -/
def whole? (s : List Char) : Option (List Char × List Char) :=
  match s with
  | '0' :: rest => some (['0'], rest)
  | _ =>
    let digits := s.takeWhile isDigit
    if digits.isEmpty then none else some (digits, s.dropWhile isDigit)

/-- A number, and what follows it. -/
def numeral? (s : List Char) : Option (Numeral × List Char) := do
  let negative := s.head? = some '-'
  let (whole, rest) ← whole? (if negative then s.tail else s)
  let (fraction, rest) ← fraction? rest
  let (exponent, rest) ← exponent? rest
  return (⟨negative, whole, fraction, exponent⟩, rest)

/-! ## Tokens -/

/-- What follows a word. -/
def afterWord? (word : String) (s : List Char) : Option (List Char) :=
  if word.toList.isPrefixOf s then some (s.drop word.toList.length) else none

/-- The token at the front, and what follows it. -/
def read? : List Char → Option (Token × List Char)
  | [] => none
  | '[' :: s => some (.openArray, s)
  | ']' :: s => some (.closeArray, s)
  | '\x7b' :: s => some (.openObject, s)
  | '\x7d' :: s => some (.closeObject, s)
  | ':' :: s => some (.colon, s)
  | ',' :: s => some (.comma, s)
  | 'n' :: s => (afterWord? "ull" s).map (Token.null, ·)
  | 't' :: s => (afterWord? "rue" s).map (Token.bool true, ·)
  | 'f' :: s => (afterWord? "alse" s).map (Token.bool false, ·)
  | '"' :: s => (pieces? s).map fun (ps, rest) => (.text ((chars? ps).map String.ofList), rest)
  | s => (numeral? s).map fun (n, rest) => (.number n, rest)

/-- A character between tokens. -/
def isGap (c : Char) : Bool := c = ' ' || c = '\n' || c = '\t' || c = '\r'

/-! ## Cutting comes to an end -/

theorem length_dropWhile_le (p : Char → Bool) (s : List Char) :
    (s.dropWhile p).length ≤ s.length :=
  (List.dropWhile_sublist p).length_le

theorem length_dropWhile_lt {p : Char → Bool} {s : List Char}
    (h : (s.takeWhile p).isEmpty = false) :
    (s.dropWhile p).length < s.length := by
  cases s with
  | nil => simp at h
  | cons c s =>
    by_cases hc : p c
    · have := length_dropWhile_le p s
      simp only [List.dropWhile_cons, hc, if_true, List.length_cons]
      omega
    · simp [hc] at h

theorem length_lt_of_pieces? {s rest : List Char} {ps : List Piece}
    (h : pieces? s = some (ps, rest)) : rest.length < s.length := by
  fun_induction pieces? s generalizing ps rest with
  | case1 => simp at h
  | case2 s => simp_all
  | case3 a b c d s ih =>
    simp only [bind, pure, Option.bind_eq_some_iff, Prod.exists] at h
    obtain ⟨_, _, qs, r, hr, h⟩ := h
    have := ih hr
    simp only [Option.some.injEq, Prod.mk.injEq] at h
    simp only [List.length_cons, ← h.2]
    omega
  | case4 e s _ ih =>
    simp only [bind, pure, Option.bind_eq_some_iff, Prod.exists] at h
    obtain ⟨_, _, qs, r, hr, h⟩ := h
    have := ih hr
    simp only [Option.some.injEq, Prod.mk.injEq] at h
    simp only [List.length_cons, ← h.2]
    omega
  | case5 => simp at h
  | case6 c s _ _ _ _ ih =>
    simp only [bind, pure, Option.bind_eq_some_iff, Prod.exists] at h
    obtain ⟨qs, r, hr, h⟩ := h
    have := ih hr
    simp only [Option.some.injEq, Prod.mk.injEq] at h
    simp only [List.length_cons, ← h.2]
    omega

theorem length_le_of_exponent? {s rest : List Char} {e : Option Int}
    (h : exponent? s = some (e, rest)) : rest.length ≤ s.length := by
  unfold exponent? at h
  split at h
  · simp_all
  · rename_i c t
    split at h
    · have hsign : (splitSign t).2.length ≤ t.length := by
        unfold splitSign
        split <;> simp
      have hdrop := length_dropWhile_le isDigit (splitSign t).2
      simp only [Option.ite_none_left_eq_some, Option.some.injEq, Prod.mk.injEq] at h
      simp only [List.length_cons, ← h.2.2]
      omega
    · simp_all

theorem length_le_of_fraction? {s rest digits : List Char}
    (h : fraction? s = some (digits, rest)) : rest.length ≤ s.length := by
  unfold fraction? at h
  split at h
  · rename_i t
    have hdrop := length_dropWhile_le isDigit t
    simp only [Option.ite_none_left_eq_some, Option.some.injEq, Prod.mk.injEq] at h
    simp only [List.length_cons, ← h.2.2]
    omega
  · simp_all

theorem length_lt_of_whole? {s rest digits : List Char}
    (h : whole? s = some (digits, rest)) : rest.length < s.length := by
  unfold whole? at h
  split at h
  · simp_all
  · simp only [Option.ite_none_left_eq_some, Option.some.injEq, Prod.mk.injEq] at h
    rw [← h.2.2]
    exact length_dropWhile_lt (Bool.eq_false_iff.2 h.1)

theorem length_lt_of_numeral? {s rest : List Char} {n : Numeral}
    (h : numeral? s = some (n, rest)) : rest.length < s.length := by
  simp only [numeral?, bind, pure, Option.bind_eq_some_iff, Prod.exists, Option.some.injEq,
    Prod.mk.injEq] at h
  obtain ⟨_, a, ha, _, b, hb, _, c, hc, _, rfl⟩ := h
  have h1 := length_lt_of_whole? ha
  have h2 := length_le_of_fraction? hb
  have h3 := length_le_of_exponent? hc
  split at h1
  · rw [List.length_tail] at h1
    omega
  · omega

theorem length_le_of_afterWord? {word : String} {s rest : List Char}
    (h : afterWord? word s = some rest) : rest.length ≤ s.length := by
  simp only [afterWord?, Option.ite_none_right_eq_some, Option.some.injEq] at h
  rw [← h.2, List.length_drop]
  omega

/-- A token takes at least one character. -/
theorem length_lt_of_read? {s rest : List Char} {t : Token} (h : read? s = some (t, rest)) :
    rest.length < s.length := by
  unfold read? at h
  split at h
  case h_1 => simp at h
  case h_8 | h_9 | h_10 =>
    simp only [Option.map_eq_some_iff, Prod.mk.injEq] at h
    obtain ⟨r, hr, _, rfl⟩ := h
    have := length_le_of_afterWord? hr
    rw [List.length_cons]
    omega
  case h_11 =>
    simp only [Option.map_eq_some_iff, Prod.exists, Prod.mk.injEq] at h
    obtain ⟨ps, r, hr, _, rfl⟩ := h
    have := length_lt_of_pieces? hr
    rw [List.length_cons]
    omega
  case h_12 =>
    simp only [Option.map_eq_some_iff, Prod.exists, Prod.mk.injEq] at h
    obtain ⟨n, r, hr, _, rfl⟩ := h
    exact length_lt_of_numeral? hr
  all_goals
    simp only [Option.some.injEq, Prod.mk.injEq] at h
    rw [← h.2, List.length_cons]
    exact Nat.lt_succ_self _

/-! ## All tokens -/

/-- The tokens of a text. -/
def all? (s : List Char) : Option (List Token) :=
  match _gap : s.dropWhile isGap with
  | [] => some []
  | c :: t =>
    match _read : read? (c :: t) with
    | none => none
    | some (token, rest) => (all? rest).map (token :: ·)
termination_by s.length
decreasing_by
  have hread := length_lt_of_read? _read
  have hdrop := length_dropWhile_le isGap s
  rw [_gap] at hdrop
  omega

end Token

end Telemetry
