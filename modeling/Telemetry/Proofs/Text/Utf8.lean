import Mathlib.Data.List.Basic
import Telemetry.Text.ByteOrder

/-!
# Valid bytes

Bytes are valid exactly if they are the bytes of a text (`utf8?_eq_some_iff`).  The codes
of characters stand between the two (`IsCode`): a byte that starts one, and the bytes that
complete it.  A code at the front of some bytes is read as its character, and a character
that is read first has its code there.  On the other side a code is what its character is
encoded as.

Where bytes are not valid, U+FFFD is among what is read (`mem_utf8Lenient`).
-/

namespace Telemetry.Text

/-! ## Codes -/

theorem of_sequel? {a : UInt8} {sequel : Nat × UInt8 × UInt8} (starts : sequel? a = some sequel) :
    ¬ a < 0x80 ∧ 0 < sequel.1 := by
  unfold sequel? at starts
  grind

/-- The range of the byte after one that starts a character tells overlong codes and those of no
character from the others. -/
theorem exists_sequel?_iff {a b : UInt8} {following : Nat} :
    (∃ s ∈ sequel? a, s.1 = following ∧ s.2.1 ≤ b ∧ b ≤ s.2.2) ↔
      0x80 ≤ b.toNat ∧ b.toNat ≤ 0xbf ∧
        (following = 1 ∧ 0xc2 ≤ a.toNat ∧ a.toNat < 0xe0 ∨
        following = 2 ∧ 0xe0 ≤ a.toNat ∧ a.toNat < 0xf0 ∧
          (a.toNat = 0xe0 → 0xa0 ≤ b.toNat) ∧ (a.toNat = 0xed → b.toNat ≤ 0x9f) ∨
        following = 3 ∧ 0xf0 ≤ a.toNat ∧ a.toNat < 0xf5 ∧
          (a.toNat = 0xf0 → 0x90 ≤ b.toNat) ∧ (a.toNat = 0xf4 → b.toNat ≤ 0x8f)) := by
  unfold sequel?
  simp only [UInt8.lt_iff_toNat_lt, UInt8.le_iff_toNat_le, ← UInt8.toNat_inj (a := a),
    UInt8.toNat_ofNat]
  generalize a.toNat = m
  generalize b.toNat = n
  split_ifs <;> simp <;> omega

/-- Whether some bytes complete a character. -/
structure Completes (p : Partial) (b : UInt8) (tails : List UInt8) : Prop where
  /-- The next one is in its range. -/
  next : p.low ≤ b ∧ b ≤ p.high
  /-- The others are in the range of all bytes that start nothing. -/
  others : ∀ c ∈ tails, 0x80 ≤ c ∧ c ≤ 0xbf
  /-- There are as many as are missing. -/
  missing : tails.length + 1 = p.missing

/-- What is open after a byte that starts a character. -/
def opened (a : UInt8) (sequel : Nat × UInt8 × UInt8) : Partial :=
  ⟨leadBits a sequel.1, sequel.1, sequel.2.1, sequel.2.2⟩

/-- Whether bytes are the code of a character. -/
inductive IsCode : List UInt8 → Nat → Prop
  | single {a : UInt8} : a < 0x80 → IsCode [a] a.toNat
  | several {a : UInt8} {sequel : Nat × UInt8 × UInt8} {b : UInt8} {tails : List UInt8} :
      sequel? a = some sequel → Completes (opened a sequel) b tails →
        IsCode (a :: b :: tails) (tails.foldl pushBits (pushBits (opened a sequel).bits b))

/-! ## Reading codes -/

theorem startByte_of_sequel? {a : UInt8} {sequel : Nat × UInt8 × UInt8}
    (starts : sequel? a = some sequel) : startByte a = ([], some (opened a sequel)) := by
  rw [startByte, if_neg (of_sequel? starts).1, starts]
  rfl

theorem startByte_cases (a : UInt8) :
    (a < 0x80 ∧ startByte a = ([some (Char.ofNat a.toNat)], none)) ∨
      startByte a = ([none], none) ∨
      ∃ sequel, sequel? a = some sequel ∧ startByte a = ([], some (opened a sequel)) := by
  by_cases small : a < 0x80
  · exact .inl ⟨small, by rw [startByte, if_pos small]⟩
  · cases starts : sequel? a with
    | none => exact .inr (.inl (by rw [startByte, if_neg small, starts]))
    | some sequel => exact .inr (.inr ⟨sequel, rfl, startByte_of_sequel? starts⟩)

/-- What is missing of a character is read with it. -/
theorem utf8Pieces_of_completes {p : Partial} {b : UInt8} {tails : List UInt8}
    (completes : Completes p b tails) (more : List UInt8) :
    utf8Pieces (some p) (b :: (tails ++ more)) =
      some (Char.ofNat (tails.foldl pushBits (pushBits p.bits b))) :: utf8Pieces none more := by
  induction tails generalizing p b with
  | nil =>
      have last : p.missing = 1 := completes.missing.symm
      rw [utf8Pieces, goOn, if_pos completes.next, if_pos last]
      rfl
  | cons c tails ih =>
      have count := completes.missing
      rw [List.length_cons] at count
      have further : p.missing ≠ 1 := by omega
      rw [utf8Pieces, goOn, if_pos completes.next, if_neg further]
      dsimp only
      rw [List.nil_append, List.cons_append, ih (p := ⟨_, _, _, _⟩) ⟨completes.others c (by simp),
        fun d there => completes.others d (List.mem_cons_of_mem c there), by dsimp only; omega⟩]
      rfl

/-- A code is read as its character. -/
theorem utf8Pieces_of_isCode {code : List UInt8} {n : Nat} (isCode : IsCode code n)
    (more : List UInt8) :
    utf8Pieces none (code ++ more) = some (Char.ofNat n) :: utf8Pieces none more := by
  cases isCode with
  | @single a small =>
      rw [List.singleton_append, utf8Pieces, startByte, if_pos small]
      rfl
  | several starts completes =>
      rw [List.cons_append, utf8Pieces, startByte_of_sequel? starts]
      exact utf8Pieces_of_completes completes more

/-- Something is read of what is left open, whatever follows. -/
theorem utf8Pieces_ne_nil (p : Partial) (bytes : List UInt8) : utf8Pieces (some p) bytes ≠ [] := by
  induction bytes generalizing p with
  | nil => exact List.cons_ne_nil _ _
  | cons b bytes ih =>
      rw [utf8Pieces, goOn]
      by_cases inside : p.low ≤ b ∧ b ≤ p.high
      · rw [if_pos inside]
        by_cases last : p.missing = 1
        · rw [if_pos last]
          exact List.cons_ne_nil _ _
        · rw [if_neg last]
          exact ih _
      · rw [if_neg inside]
        exact List.cons_ne_nil _ _

/-- A character that is read first has been completed. -/
theorem exists_completes {p : Partial} {bytes : List UInt8} {c : Char} {pieces : List (Option Char)}
    (read : utf8Pieces (some p) bytes = some c :: pieces) (positive : 0 < p.missing) :
    ∃ b tails more, bytes = b :: (tails ++ more) ∧ Completes p b tails ∧
      c = Char.ofNat (tails.foldl pushBits (pushBits p.bits b)) ∧
      utf8Pieces none more = pieces := by
  induction bytes generalizing p with
  | nil => cases read
  | cons b bytes ih =>
      rw [utf8Pieces, goOn] at read
      by_cases inside : p.low ≤ b ∧ b ≤ p.high
      · rw [if_pos inside] at read
        by_cases last : p.missing = 1
        · rw [if_pos last] at read
          cases read
          exact ⟨b, [], bytes, rfl, ⟨inside, nofun, last.symm⟩, rfl, rfl⟩
        · rw [if_neg last] at read
          have left : 0 < p.missing - 1 := by omega
          obtain ⟨b', tails, more, rfl, completes, rfl, rest⟩ := ih read left
          have count : tails.length + 1 = p.missing - 1 := completes.missing
          refine ⟨b, b' :: tails, more, rfl, ⟨inside, ?_, ?_⟩, rfl, rest⟩
          · exact List.forall_mem_cons.mpr ⟨completes.next, completes.others⟩
          · rw [List.length_cons]
            omega
      · rw [if_neg inside] at read
        cases read

/-- A character that is read first has its code there. -/
theorem exists_isCode {bytes : List UInt8} {c : Char} {pieces : List (Option Char)}
    (read : utf8Pieces none bytes = some c :: pieces) :
    ∃ code n more, bytes = code ++ more ∧ IsCode code n ∧ c = Char.ofNat n ∧
      utf8Pieces none more = pieces := by
  cases bytes with
  | nil => cases read
  | cons a bytes =>
      rw [utf8Pieces] at read
      rcases startByte_cases a with ⟨small, start⟩ | start | ⟨sequel, starts, start⟩
      · rw [start] at read
        cases read
        exact ⟨[a], _, bytes, rfl, .single small, rfl, rfl⟩
      · rw [start] at read
        cases read
      · rw [start] at read
        obtain ⟨b, tails, more, rfl, completes, rfl, rest⟩ :=
          exists_completes read (of_sequel? starts).2
        exact ⟨a :: b :: tails, _, more, rfl, .several starts completes, rfl, rest⟩

/-! ## Codes of characters -/

theorem toNat_tail (n : Nat) : (UInt8.ofNat (n % 64 + 128)).toNat = n % 64 + 128 := by
  rw [UInt8.toNat_ofNat']
  omega

theorem range_tail (n : Nat) :
    (0x80 : UInt8) ≤ UInt8.ofNat (n % 64 + 128) ∧ UInt8.ofNat (n % 64 + 128) ≤ (0xbf : UInt8) := by
  rw [UInt8.le_iff_toNat_le, UInt8.le_iff_toNat_le, toNat_tail]
  change 128 ≤ _ ∧ _ ≤ 191
  omega

theorem pushBits_tail (bits n : Nat) :
    pushBits bits (UInt8.ofNat (n % 64 + 128)) = bits * 64 + n % 64 := by
  rw [pushBits, toNat_tail]
  omega

/-- A code of several bytes, from the range of the second byte and the bits. -/
theorem IsCode.of_bits {a b : UInt8} {tails : List UInt8} {n : Nat}
    (next : ∃ s ∈ sequel? a, s.1 = tails.length + 1 ∧ s.2.1 ≤ b ∧ b ≤ s.2.2)
    (others : ∀ c ∈ tails, 0x80 ≤ c ∧ c ≤ 0xbf)
    (bits : tails.foldl pushBits (pushBits (leadBits a (tails.length + 1)) b) = n) :
    IsCode (a :: b :: tails) n := by
  obtain ⟨sequel, starts, following, range⟩ := next
  have completes : Completes (opened a sequel) b tails := ⟨range, others, following.symm⟩
  have code := IsCode.several starts completes
  rw [opened, following] at code
  rwa [← bits]

theorem isCode_one {n : Nat} (small : n < 0x80) : IsCode [UInt8.ofNat n] n := by
  have byte : (UInt8.ofNat n).toNat = n := by
    rw [UInt8.toNat_ofNat']
    omega
  have ascii : UInt8.ofNat n < 0x80 := by
    rw [UInt8.lt_iff_toNat_lt, byte]
    exact small
  have code := IsCode.single ascii
  rwa [byte] at code

theorem isCode_two {n : Nat} (least : 0x80 ≤ n) (greatest : n < 0x800) :
    IsCode [UInt8.ofNat (n / 64 % 32 + 192), UInt8.ofNat (n % 64 + 128)] n := by
  have lead : (UInt8.ofNat (n / 64 % 32 + 192)).toNat = n / 64 + 192 := by
    rw [UInt8.toNat_ofNat']
    omega
  refine .of_bits (exists_sequel?_iff.mpr ?_) (List.forall_mem_nil _) ?_
  · rw [lead, toNat_tail]
    exact ⟨by omega, by omega, .inl ⟨rfl, by omega, by omega⟩⟩
  · change pushBits _ _ = n
    rw [pushBits_tail, leadBits, lead]
    change (n / 64 + 192) % 32 * 64 + n % 64 = n
    omega

theorem isCode_three {n : Nat} (least : 0x800 ≤ n)
    (greatest : n < 0xd800 ∨ 0xdfff < n ∧ n < 0x10000) :
    IsCode [UInt8.ofNat (n / 4096 % 16 + 224), UInt8.ofNat (n / 64 % 64 + 128),
      UInt8.ofNat (n % 64 + 128)] n := by
  have lead : (UInt8.ofNat (n / 4096 % 16 + 224)).toNat = n / 4096 + 224 := by
    rw [UInt8.toNat_ofNat']
    omega
  refine .of_bits (exists_sequel?_iff.mpr ?_) (List.forall_mem_singleton.mpr (range_tail n)) ?_
  · rw [lead, toNat_tail]
    exact ⟨by omega, by omega, .inr (.inl ⟨rfl, by omega, by omega, by omega, by omega⟩)⟩
  · change pushBits (pushBits _ _) _ = n
    rw [pushBits_tail, pushBits_tail, leadBits, lead]
    change ((n / 4096 + 224) % 16 * 64 + n / 64 % 64) * 64 + n % 64 = n
    omega

theorem isCode_four {n : Nat} (least : 0x10000 ≤ n) (greatest : n < 0x110000) :
    IsCode [UInt8.ofNat (n / 262144 % 8 + 240), UInt8.ofNat (n / 4096 % 64 + 128),
      UInt8.ofNat (n / 64 % 64 + 128), UInt8.ofNat (n % 64 + 128)] n := by
  have lead : (UInt8.ofNat (n / 262144 % 8 + 240)).toNat = n / 262144 + 240 := by
    rw [UInt8.toNat_ofNat']
    omega
  refine .of_bits (exists_sequel?_iff.mpr ?_) (List.forall_mem_cons.mpr ⟨range_tail (n / 64),
    List.forall_mem_singleton.mpr (range_tail n)⟩) ?_
  · rw [lead, toNat_tail]
    exact ⟨by omega, by omega, .inr (.inr ⟨rfl, by omega, by omega, by omega, by omega⟩)⟩
  · change pushBits (pushBits (pushBits _ _) _) _ = n
    rw [pushBits_tail, pushBits_tail, pushBits_tail, leadBits, lead]
    change (((n / 262144 + 240) % 8 * 64 + n / 4096 % 64) * 64 + n / 64 % 64) * 64 + n % 64 = n
    omega

/-- What a character is encoded as is its code. -/
theorem isCode_encode (c : Char) : IsCode (String.utf8EncodeChar c) c.toNat := by
  have valid : c.toNat < 0xd800 ∨ 0xdfff < c.toNat ∧ c.toNat < 0x110000 := c.valid
  unfold String.utf8EncodeChar
  dsimp only
  rw [Char.toNat_val]
  generalize c.toNat = n at valid
  split
  next => exact isCode_one (by omega)
  next =>
    split
    next => exact isCode_two (by omega) (by omega)
    next =>
      split
      next => exact isCode_three (by omega) (by omega)
      next => exact isCode_four (by omega) (by omega)

theorem toNat_ofNat {n : Nat} (valid : n < 0xd800 ∨ 0xdfff < n ∧ n < 0x110000) :
    (Char.ofNat n).toNat = n := by
  rw [Char.ofNat, dif_pos valid]
  rfl

/-- Whether a byte completes a character. -/
def IsTail (b : UInt8) : Prop := 0x80 ≤ b.toNat ∧ b.toNat ≤ 0xbf

theorem IsTail.of_le {b : UInt8} (range : 0x80 ≤ b ∧ b ≤ 0xbf) : IsTail b :=
  ⟨UInt8.le_iff_toNat_le.mp range.1, UInt8.le_iff_toNat_le.mp range.2⟩

theorem IsTail.eq {b : UInt8} (tail : IsTail b) {bits : Nat} (same : bits % 64 = b.toNat % 64) :
    UInt8.ofNat (bits % 64 + 128) = b := by
  have ⟨least, greatest⟩ := tail
  rw [← UInt8.toNat_inj, toNat_tail]
  omega

section Encoding

variable {a b c d : UInt8}

theorem encode_one (ascii : a.toNat < 0x80) :
    String.utf8EncodeChar (Char.ofNat a.toNat) = [a] := by
  unfold String.utf8EncodeChar
  dsimp only
  rw [Char.toNat_val, toNat_ofNat (.inl (by omega)), if_pos (by omega), UInt8.ofNat_toNat]

theorem encode_two (lead : 0xc2 ≤ a.toNat ∧ a.toNat < 0xe0) (tail : IsTail b) :
    String.utf8EncodeChar (Char.ofNat (a.toNat % 32 * 64 + b.toNat % 64)) = [a, b] := by
  unfold String.utf8EncodeChar
  dsimp only
  rw [Char.toNat_val, toNat_ofNat (.inl (by omega)), if_neg (by omega), if_pos (by omega),
    tail.eq (by omega)]
  congr 1
  rw [← UInt8.toNat_inj, UInt8.toNat_ofNat']
  omega

theorem encode_three (lead : 0xe0 ≤ a.toNat ∧ a.toNat < 0xf0)
    (overlong : a.toNat = 0xe0 → 0xa0 ≤ b.toNat) (surrogate : a.toNat = 0xed → b.toNat ≤ 0x9f)
    (tail : IsTail b) (tail' : IsTail c) :
    String.utf8EncodeChar
      (Char.ofNat ((a.toNat % 16 * 64 + b.toNat % 64) * 64 + c.toNat % 64)) = [a, b, c] := by
  have ⟨least, greatest⟩ := tail
  unfold String.utf8EncodeChar
  dsimp only
  rw [Char.toNat_val, toNat_ofNat (by omega), if_neg (by omega), if_neg (by omega),
    if_pos (by omega), tail.eq (by omega), tail'.eq (by omega)]
  congr 1
  rw [← UInt8.toNat_inj, UInt8.toNat_ofNat']
  omega

theorem encode_four (lead : 0xf0 ≤ a.toNat ∧ a.toNat < 0xf5)
    (overlong : a.toNat = 0xf0 → 0x90 ≤ b.toNat) (beyond : a.toNat = 0xf4 → b.toNat ≤ 0x8f)
    (tail : IsTail b) (tail' : IsTail c) (tail'' : IsTail d) :
    String.utf8EncodeChar
      (Char.ofNat (((a.toNat % 8 * 64 + b.toNat % 64) * 64 + c.toNat % 64) * 64 + d.toNat % 64)) =
      [a, b, c, d] := by
  have ⟨least, greatest⟩ := tail
  unfold String.utf8EncodeChar
  dsimp only
  rw [Char.toNat_val, toNat_ofNat (.inr ⟨by omega, by omega⟩), if_neg (by omega),
    if_neg (by omega), if_neg (by omega), tail.eq (by omega), tail'.eq (by omega),
    tail''.eq (by omega)]
  congr 1
  rw [← UInt8.toNat_inj, UInt8.toNat_ofNat']
  omega

end Encoding

/-- A code is what its character is encoded as. -/
theorem encode_of_isCode {code : List UInt8} {n : Nat} (isCode : IsCode code n) :
    String.utf8EncodeChar (Char.ofNat n) = code := by
  cases isCode with
  | single small => exact encode_one (UInt8.lt_iff_toNat_lt.mp small)
  | @several a sequel b tails starts completes =>
      obtain ⟨least, greatest, lead⟩ :=
        exists_sequel?_iff.mp ⟨sequel, starts, rfl, completes.next⟩
      have tail : IsTail b := ⟨least, greatest⟩
      have tails_ : ∀ c ∈ tails, IsTail c := fun c there => .of_le (completes.others c there)
      have count : tails.length + 1 = sequel.1 := completes.missing
      rw [opened]
      -- The first byte tells how many there are, and so which bits they push.
      rcases lead with ⟨two, lead⟩ | ⟨three, low, high, overlong, surrogate⟩ |
        ⟨four, low, high, overlong, beyond⟩
      · obtain rfl : tails = [] := List.eq_nil_of_length_eq_zero (by omega)
        rw [two]
        exact encode_two lead tail
      · obtain ⟨c, rfl⟩ : ∃ c, tails = [c] := List.length_eq_one_iff.mp (by omega)
        rw [three]
        exact encode_three ⟨low, high⟩ overlong surrogate tail (tails_ c List.mem_cons_self)
      · obtain ⟨c, d, rfl⟩ : ∃ c d, tails = [c, d] := List.length_eq_two.mp (by omega)
        obtain ⟨third, fourth⟩ := List.forall_mem_cons.mp tails_
        rw [four]
        exact encode_four ⟨low, high⟩ overlong beyond tail third
          (fourth d (List.mem_singleton_self d))

/-! ## Texts -/

/-- The bytes of a text. -/
def encode (text : List Char) : List UInt8 := text.flatMap String.utf8EncodeChar

theorem utf8Pieces_encode (text : List Char) :
    utf8Pieces none (encode text) = text.map some := by
  induction text with
  | nil => rfl
  | cons c text ih =>
      rw [encode, List.flatMap_cons, utf8Pieces_of_isCode (isCode_encode c), Char.ofNat_toNat,
        List.map_cons, ← ih, encode]

theorem eq_encode {bytes : List UInt8} {text : List Char}
    (read : utf8Pieces none bytes = text.map some) : bytes = encode text := by
  induction text generalizing bytes with
  | nil =>
      cases bytes with
      | nil => rfl
      | cons a bytes =>
          rw [utf8Pieces] at read
          rcases startByte_cases a with ⟨-, start⟩ | start | ⟨sequel, -, start⟩ <;>
            rw [start] at read
          · cases read
          · cases read
          · exact absurd read (utf8Pieces_ne_nil _ _)
  | cons c text ih =>
      obtain ⟨code, n, more, rfl, isCode, rfl, rest⟩ := exists_isCode read
      rw [encode, List.flatMap_cons, encode_of_isCode isCode, ih rest, encode]

theorem mapM_id_eq_some_iff {α : Type} {given : List (Option α)} {values : List α} :
    given.mapM id = some values ↔ given = values.map some := by
  induction given generalizing values with
  | nil => cases values <;> simp
  | cons x given ih =>
      cases x with
      | none => cases values <;> simp
      | some x => cases values <;> simp [ih, Option.bind_eq_some_iff, and_comm]

/-- Bytes are valid exactly if they are the bytes of a text, and then it is this one. -/
theorem utf8?_eq_some_iff {bytes : List UInt8} {text : List Char} :
    utf8? bytes = some text ↔ bytes = encode text := by
  rw [utf8?, mapM_id_eq_some_iff]
  constructor
  · exact eq_encode
  · rintro rfl
    exact utf8Pieces_encode text

theorem utf8Lenient_encode (text : List Char) : utf8Lenient (encode text) = text := by
  rw [utf8Lenient, utf8Pieces_encode, List.map_map]
  exact List.map_id text

/-- Where bytes are not those of a text, the lenient reading tells. -/
theorem mem_utf8Lenient {bytes : List UInt8} (invalid : ∀ text, bytes ≠ encode text) :
    '\ufffd' ∈ utf8Lenient bytes := by
  have broken : none ∈ utf8Pieces none bytes := by
    by_contra absent
    have read : utf8Pieces none bytes = (utf8Lenient bytes).map some := by
      rw [utf8Lenient, List.map_map]
      refine (List.map_id _).symm.trans (List.map_congr_left fun piece there => ?_)
      cases piece with
      | none => exact absurd there absent
      | some c => rfl
    exact invalid _ (eq_encode read)
  exact List.mem_map.mpr ⟨none, broken, rfl⟩

/-! ## Byte order marks -/

/-- What is a mark at the front of bytes, and stands for nothing. -/
def byteOrderMark : Char := '\ufeff'

/-- What stands for bytes that are not valid. -/
def replacement : Char := '\ufffd'

/-- Whether bytes start with the mark of an encoding in pairs of bytes. -/
def IsMarked16 (bytes : List UInt8) : Prop := [0xff, 0xfe] <+: bytes ∨ [0xfe, 0xff] <+: bytes

theorem encode_byteOrderMark (text : List Char) :
    encode (byteOrderMark :: text) = 0xef :: 0xbb :: 0xbf :: encode text := rfl

theorem utf8Lenient_byteOrderMark (bytes : List UInt8) :
    utf8Lenient (0xef :: 0xbb :: 0xbf :: bytes) = byteOrderMark :: utf8Lenient bytes := by
  have code := utf8Pieces_of_isCode (isCode_encode byteOrderMark) bytes
  rw [utf8Lenient]
  exact (congrArg (List.map _) code).trans rfl

/-- The bytes of a text are read as this text, without a mark at its front. -/
theorem ofBytes_encode (text : List Char) :
    ofBytes (encode text) = if text.head? = some byteOrderMark then text.tail else text := by
  split
  next marked =>
    obtain ⟨rest, rfl⟩ := List.head?_eq_some_iff.mp marked
    exact utf8Lenient_encode rest
  next unmarked =>
    have whole := utf8Lenient_encode text
    have pieces := utf8Pieces_encode text
    generalize encode text = bytes at whole pieces
    unfold ofBytes
    split
    next rest =>
      rw [utf8Lenient_byteOrderMark] at whole
      exact absurd (congrArg List.head? whole).symm unmarked
    next => cases text <;> cases pieces
    next => cases text <;> cases pieces
    next => exact whole

/-- Bytes that are those of no text are read in pairs, or what is read tells. -/
theorem mem_ofBytes {bytes : List UInt8} (invalid : ∀ text, bytes ≠ encode text) :
    IsMarked16 bytes ∨ replacement ∈ ofBytes bytes := by
  unfold ofBytes
  split
  next rest =>
    refine .inr (mem_utf8Lenient fun text same => invalid (byteOrderMark :: text) ?_)
    rw [encode_byteOrderMark, same]
  next rest => exact .inl (.inl ⟨rest, rfl⟩)
  next rest => exact .inl (.inr ⟨rest, rfl⟩)
  next => exact .inr (mem_utf8Lenient invalid)

end Telemetry.Text
