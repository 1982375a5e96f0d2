import Telemetry.Double.Decimal
import Telemetry.Proofs.Text.Cutting

/-!
# Numerals

The texts that are read as numbers have a grammar.

    float    = [sign] ("inf" / "infinity" / "nan" / decimal)
    decimal  = (digits / digits "." *digit / *digit "." digits) [exponent]
    exponent = ("e" / "E") [sign] digits
    whole    = [sign] digits

The words may be spelled in any case.  `Double.read?` has a result exactly for a float
(`isSome_read?_iff`), and `readInt64?` for a whole number that fits in 64 bits
(`isSome_readInt64?_iff`).  The readers take the longest run of digits wherever digits
may stand, and nothing is lost by that, since no digit can follow digits in the grammar.
-/

namespace Telemetry

open Text

/-! ## The grammar -/

/-- A sign, or none. -/
inductive IsSign : List Char → Prop where
  | absent : IsSign []
  | plus : IsSign ['+']
  | minus : IsSign ['-']

/-- Digits, at least one. -/
structure IsDigits (s : List Char) : Prop where
  nonempty : s ≠ []
  all : ∀ c ∈ s, isDigit c = true

/-- An exponent, or none. -/
inductive IsExponent : List Char → Prop where
  | absent : IsExponent []
  | given {mark : Char} {sign digits : List Char} : mark = 'e' ∨ mark = 'E' → IsSign sign →
      IsDigits digits → IsExponent (mark :: (sign ++ digits))

/-- Digits with an optional point, on either side of which digits may be left out. -/
inductive IsDecimal : List Char → Prop where
  | whole {digits exponent : List Char} : IsDigits digits → IsExponent exponent →
      IsDecimal (digits ++ exponent)
  | point {whole fraction exponent : List Char} : (∀ c ∈ whole, isDigit c = true) →
      (∀ c ∈ fraction, isDigit c = true) → whole ++ fraction ≠ [] → IsExponent exponent →
      IsDecimal (whole ++ '.' :: (fraction ++ exponent))

/-- Whether a text is a word in any case. -/
def IsWord (word : String) (s : List Char) : Prop := s.map Char.toLower = word.toList

/-- A number of the format binary64. -/
inductive IsFloat : List Char → Prop where
  | infinite {sign word : List Char} : IsSign sign → IsWord "inf" word ∨ IsWord "infinity" word →
      IsFloat (sign ++ word)
  | nan {sign word : List Char} : IsSign sign → IsWord "nan" word → IsFloat (sign ++ word)
  | decimal {sign digits : List Char} : IsSign sign → IsDecimal digits → IsFloat (sign ++ digits)

/-- A whole number between the bounds of 64 bits with a sign. -/
inductive IsInt64 : List Char → Prop where
  | positive {sign digits : List Char} : sign = [] ∨ sign = ['+'] → IsDigits digits →
      (natOfDigits digits : Int) ≤ Int64.maxValue.toInt → IsInt64 (sign ++ digits)
  | negative {digits : List Char} : IsDigits digits →
      Int64.minValue.toInt ≤ -(natOfDigits digits : Int) → IsInt64 ('-' :: digits)

/-! ## Signs -/

/-- Whether a text does not start with a sign. -/
def IsUnsigned (s : List Char) : Prop := s.head? ≠ some '+' ∧ s.head? ≠ some '-'

/-- A sign is split off whatever does not start with one. -/
theorem splitSign_append {sign s : List Char} (signed : IsSign sign) (start : IsUnsigned s) :
    splitSign (sign ++ s) = (decide (sign = ['-']), s) := by
  cases signed with
  | plus => rfl
  | minus => rfl
  | absent =>
      rw [List.nil_append, splitSign]
      · rfl
      · rintro rest rfl
        exact start.2 rfl
      · rintro rest rfl
        exact start.1 rfl

theorem exists_sign (s : List Char) :
    ∃ sign, IsSign sign ∧ s = sign ++ (splitSign s).2 ∧
      (splitSign s).1 = decide (sign = ['-']) := by
  unfold splitSign
  split
  · exact ⟨['-'], .minus, rfl, rfl⟩
  · exact ⟨['+'], .plus, rfl, rfl⟩
  · exact ⟨[], .absent, rfl, rfl⟩

theorem isUnsigned_of_isDigits {s : List Char} (digits : IsDigits s) (rest : List Char) :
    IsUnsigned (s ++ rest) := by
  cases s with
  | nil => exact absurd rfl digits.nonempty
  | cons c s =>
      have digit := digits.all c List.mem_cons_self
      constructor
      · rintro equal
        cases equal
        exact absurd digit (by decide)
      · rintro equal
        cases equal
        exact absurd digit (by decide)

/-! ## Whole numbers -/

theorem isSome_readNat?_iff {s : List Char} : (readNat? s).isSome = true ↔ IsDigits s := by
  rw [readNat?]
  split
  next given =>
    rw [Bool.and_eq_true, Bool.not_eq_true', List.isEmpty_eq_false_iff, List.all_eq_true] at given
    exact ⟨fun _ => ⟨given.1, given.2⟩, fun _ => rfl⟩
  next absent =>
    rw [Bool.and_eq_true, Bool.not_eq_true', List.isEmpty_eq_false_iff, List.all_eq_true] at absent
    exact ⟨nofun, fun digits => absurd ⟨digits.nonempty, digits.all⟩ absent⟩

theorem readNat?_of_isDigits {s : List Char} (digits : IsDigits s) :
    readNat? s = some (natOfDigits s) := by
  have given := isSome_readNat?_iff.mpr digits
  rw [readNat?] at given ⊢
  split
  · rfl
  next absent =>
    rw [if_neg absent] at given
    cases given

/-- A whole number is read with its sign. -/
theorem readInt?_append {sign digits : List Char} (signed : IsSign sign)
    (given : IsDigits digits) :
    readInt? (sign ++ digits) =
      some (if sign = ['-'] then -(natOfDigits digits : Int) else natOfDigits digits) := by
  have start := isUnsigned_of_isDigits given []
  rw [List.append_nil] at start
  rw [readInt?, splitSign_append signed start]
  dsimp only
  rw [readNat?_of_isDigits given]
  simp

theorem exists_of_isSome_readInt? {s : List Char} (read : (readInt? s).isSome = true) :
    ∃ sign digits, IsSign sign ∧ IsDigits digits ∧ s = sign ++ digits := by
  obtain ⟨sign, signed, split, -⟩ := exists_sign s
  have digits : IsDigits (splitSign s).2 := by
    rw [← isSome_readNat?_iff]
    cases number : readNat? (splitSign s).2 with
    | none =>
        rw [readInt?] at read
        dsimp only at read
        rw [number] at read
        cases read
    | some n => rfl
  exact ⟨sign, _, signed, digits, split⟩

theorem isSome_readInt?_iff {s : List Char} :
    (readInt? s).isSome = true ↔ ∃ sign digits, IsSign sign ∧ IsDigits digits ∧
      s = sign ++ digits := by
  refine ⟨exists_of_isSome_readInt?, ?_⟩
  rintro ⟨sign, digits, signed, given, rfl⟩
  rw [readInt?_append signed given]
  rfl

theorem isSome_readInt64?_of_readInt? {s : List Char} {n : Int} (number : readInt? s = some n) :
    (readInt64? s).isSome = true ↔ Int64.minValue.toInt ≤ n ∧ n ≤ Int64.maxValue.toInt := by
  rw [readInt64?, number, Option.bind_some]
  split
  next fits => exact ⟨fun _ => fits, fun _ => rfl⟩
  next wide => exact ⟨nofun, fun fits => absurd fits wide⟩

/-- A whole number of 64 bits is read exactly if it is one. -/
theorem isSome_readInt64?_iff {s : List Char} : (readInt64? s).isSome = true ↔ IsInt64 s := by
  constructor
  · intro read
    cases number : readInt? s with
    | none =>
        rw [readInt64?, number] at read
        cases read
    | some n =>
        obtain ⟨sign, digits, signed, given, rfl⟩ :=
          isSome_readInt?_iff.mp (by rw [number]; rfl : (readInt? s).isSome = true)
        obtain ⟨least, greatest⟩ := (isSome_readInt64?_of_readInt? number).mp read
        rw [readInt?_append signed given, Option.some.injEq] at number
        cases signed with
        | absent =>
            rw [if_neg (by decide)] at number
            exact .positive (.inl rfl) given (number ▸ greatest)
        | plus =>
            rw [if_neg (by decide)] at number
            exact .positive (.inr rfl) given (number ▸ greatest)
        | minus =>
            rw [if_pos rfl] at number
            exact .negative given (number ▸ least)
  · intro whole
    cases whole with
    | @positive sign digits signed given fits =>
        have isSign : IsSign sign := by
          rcases signed with rfl | rfl
          · exact .absent
          · exact .plus
        have positive : sign ≠ ['-'] := by
          rcases signed with rfl | rfl
          · decide
          · decide
        have below : Int64.minValue.toInt ≤ 0 := by decide
        rw [isSome_readInt64?_of_readInt? (readInt?_append isSign given), if_neg positive]
        omega
    | @negative digits given fits =>
        have number := readInt?_append .minus given
        rw [if_pos rfl] at number
        have above : 0 ≤ Int64.maxValue.toInt := by decide
        refine (isSome_readInt64?_of_readInt? number).mpr ?_
        omega

/-! ## Decimal numbers -/

namespace Double

theorem isSome_readExponent?_iff {s : List Char} :
    (readExponent? s).isSome = true ↔ IsExponent s := by
  cases s with
  | nil => exact ⟨fun _ => .absent, fun _ => rfl⟩
  | cons mark rest =>
      rw [readExponent?]
      constructor
      · intro read
        split at read
        next marked =>
          obtain ⟨sign, digits, signed, given, rfl⟩ := isSome_readInt?_iff.mp read
          exact .given marked signed given
        next => cases read
      · intro exponent
        cases exponent with
        | @given _ sign digits marked signed given =>
            rw [if_pos marked]
            exact isSome_readInt?_iff.mpr ⟨sign, digits, signed, given, rfl⟩

/-- No exponent starts with a digit or a point. -/
theorem head?_of_isExponent {s : List Char} (exponent : IsExponent s) :
    s.head?.any isDigit = false ∧ s.head? ≠ some '.' := by
  cases exponent with
  | absent => exact ⟨rfl, nofun⟩
  | given marked =>
      rcases marked with rfl | rfl
      · exact ⟨(by decide : isDigit 'e' = false), nofun⟩
      · exact ⟨(by decide : isDigit 'E' = false), nofun⟩

/-- Digits that no point follows are followed by the exponent. -/
theorem isSome_readDecimal?_whole (negative : Bool) {whole rest : List Char}
    (all : ∀ c ∈ whole, isDigit c = true) (stop : rest.head?.any isDigit = false)
    (pointless : rest.head? ≠ some '.') :
    (readDecimal? negative (whole ++ rest)).isSome = true ↔
      whole ≠ [] ∧ (readExponent? rest).isSome = true := by
  rw [readDecimal?, takeWhile_append_stop all stop, dropWhile_append_stop all stop]
  rw [if_neg pointless, if_neg pointless, List.append_nil, List.length_nil, List.drop_zero]
  cases whole with
  | nil => exact ⟨nofun, fun given => absurd rfl given.1⟩
  | cons c whole => simp

/-- Behind a point there are more digits, and the exponent. -/
theorem isSome_readDecimal?_point (negative : Bool) {whole : List Char}
    (all : ∀ c ∈ whole, isDigit c = true) (rest : List Char) :
    (readDecimal? negative (whole ++ '.' :: rest)).isSome = true ↔
      whole ++ rest.takeWhile isDigit ≠ [] ∧
        (readExponent? (rest.dropWhile isDigit)).isSome = true := by
  have stop : ('.' :: rest).head?.any isDigit = false := rfl
  rw [readDecimal?, takeWhile_append_stop all stop, dropWhile_append_stop all stop]
  rw [if_pos (show ('.' :: rest).head? = some '.' from rfl),
    if_pos (show ('.' :: rest).head? = some '.' from rfl), List.tail_cons, drop_length_takeWhile]
  cases digits : whole ++ rest.takeWhile isDigit with
  | nil => exact ⟨nofun, fun given => absurd rfl given.1⟩
  | cons c more => simp

theorem isSome_readDecimal?_iff {negative : Bool} {s : List Char} :
    (readDecimal? negative s).isSome = true ↔ IsDecimal s := by
  constructor
  · intro read
    have all : ∀ c ∈ s.takeWhile isDigit, isDigit c = true := fun c there =>
      List.mem_takeWhile_imp there
    have split : s.takeWhile isDigit ++ s.dropWhile isDigit = s :=
      List.takeWhile_append_dropWhile
    have stop := head?_dropWhile_stop isDigit s
    generalize s.takeWhile isDigit = whole at all split
    generalize s.dropWhile isDigit = rest at stop split
    subst split
    by_cases point : rest.head? = some '.'
    · obtain ⟨more, rfl⟩ := List.head?_eq_some_iff.mp point
      obtain ⟨nonempty, exponent⟩ := (isSome_readDecimal?_point negative all more).mp read
      have decimal := IsDecimal.point all (fun c there => List.mem_takeWhile_imp there) nonempty
        (isSome_readExponent?_iff.mp exponent)
      rwa [List.takeWhile_append_dropWhile] at decimal
    · obtain ⟨nonempty, exponent⟩ := (isSome_readDecimal?_whole negative all stop point).mp read
      exact .whole ⟨nonempty, all⟩ (isSome_readExponent?_iff.mp exponent)
  · intro decimal
    cases decimal with
    | whole digits exponent =>
        obtain ⟨stop, pointless⟩ := head?_of_isExponent exponent
        exact (isSome_readDecimal?_whole negative digits.all stop pointless).mpr
          ⟨digits.nonempty, isSome_readExponent?_iff.mpr exponent⟩
    | point whole fraction nonempty exponent =>
        have stop := (head?_of_isExponent exponent).1
        refine (isSome_readDecimal?_point negative whole _).mpr ?_
        rw [takeWhile_append_stop fraction stop, dropWhile_append_stop fraction stop]
        exact ⟨nonempty, isSome_readExponent?_iff.mpr exponent⟩

/-! ## Floats -/

theorem isUnsigned_of_isDecimal {s : List Char} (decimal : IsDecimal s) : IsUnsigned s := by
  cases decimal with
  | whole digits _ => exact isUnsigned_of_isDigits digits _
  | @point whole fraction exponent all _ _ _ =>
      cases whole with
      | nil => exact ⟨by simp, by simp⟩
      | cons c whole => exact isUnsigned_of_isDigits ⟨List.cons_ne_nil c whole, all⟩ _

theorem isUnsigned_of_isWord {word : String} {s : List Char} (unsigned : IsUnsigned word.toList)
    (given : IsWord word s) : IsUnsigned s := by
  rw [← show s.map Char.toLower = word.toList from given] at unsigned
  constructor
  · intro plus
    exact unsigned.1 (by rw [List.head?_map, plus]; rfl)
  · intro minus
    exact unsigned.2 (by rw [List.head?_map, minus]; rfl)

/-- A number of the format binary64 is read exactly if it is one. -/
theorem isSome_read?_iff {s : List Char} : (read? s).isSome = true ↔ IsFloat s := by
  constructor
  · intro read
    obtain ⟨sign, signed, split, -⟩ := exists_sign s
    rw [split]
    rw [read?] at read
    dsimp only at read
    split at read
    next infinite => exact .infinite signed infinite
    split at read
    next nan => exact .nan signed nan
    next => exact .decimal signed (isSome_readDecimal?_iff.mp read)
  · intro float
    cases float with
    | @infinite sign word signed infinite =>
        have start : IsUnsigned word :=
          infinite.elim (isUnsigned_of_isWord ⟨by decide, by decide⟩)
            (isUnsigned_of_isWord ⟨by decide, by decide⟩)
        rw [read?, splitSign_append signed start]
        dsimp only
        exact congrArg Option.isSome (if_pos infinite)
    | @nan sign word signed nan =>
        have start : IsUnsigned word := isUnsigned_of_isWord ⟨by decide, by decide⟩ nan
        rw [read?, splitSign_append signed start]
        dsimp only
        split
        · rfl
        exact congrArg Option.isSome (if_pos nan)
    | decimal signed decimal =>
        rw [read?, splitSign_append signed (isUnsigned_of_isDecimal decimal)]
        dsimp only
        split
        · rfl
        split
        · rfl
        exact isSome_readDecimal?_iff.mpr decimal

end Double

end Telemetry
