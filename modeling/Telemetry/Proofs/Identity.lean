import Mathlib.Data.Set.Function
import Mathlib.Tactic.SplitIfs
import Telemetry.Identity
import Telemetry.Proofs.Text.Base64
import Telemetry.Proofs.Text.Cutting

/-!
# Identities and their fingerprints

Labels are sorted by an order in which no two of them come first of each other, so one
way of sorting them is left, and an identity tells its labels up to their order and
nothing else (`Identity.of_eq_iff`).

Where identities are compared they are not there as a whole.  A *fingerprint* has the
name and a hash of the labels, taken of their bytes (`Identity.bytes`): keys and values
one after the other, each closed by a byte that is in no text.  So the bytes tell where a
text ends, and with it all the texts (`closedBytes_append_inj`).  What is lost is lost by
the hash, and nothing is lost as long as the hash tells the bytes apart that are fed to it
(`Identity.fingerprint_eq_iff`).

A hash of all there is to feed cannot do that, since it has 64 bits.  So it is asked for
only on a set of bytes.
-/

namespace Telemetry

/-! ## Sorted labels -/

section Sorting

variable {a b c : String × String}

theorem labelLe_iff : labelLe a b = true ↔ a.1 < b.1 ∨ a.1 = b.1 ∧ a.2 ≤ b.2 := by
  simp only [labelLe, Bool.or_eq_true, Bool.and_eq_true, decide_eq_true_eq]

theorem labelLe_trans (first : labelLe a b = true) (second : labelLe b c = true) :
    labelLe a c = true := by
  rw [labelLe_iff] at first second ⊢
  rcases first with less | ⟨same, le⟩ <;> rcases second with less' | ⟨same', le'⟩
  · exact .inl (String.lt_trans less less')
  · exact .inl (same' ▸ less)
  · exact .inl (same ▸ less')
  · exact .inr ⟨same.trans same', String.le_trans le le'⟩

theorem labelLe_of_not (later : ¬labelLe a b = true) : labelLe b a = true := by
  rw [labelLe_iff, not_or, String.not_lt] at later
  obtain ⟨keys, values⟩ := later
  rw [labelLe_iff]
  by_cases same : a.1 = b.1
  · exact .inr ⟨same.symm, (String.le_total a.2 b.2).resolve_left fun le => values ⟨same, le⟩⟩
  · exact .inl (Std.lt_of_le_of_ne keys fun equal => same equal.symm)

theorem labelLe_antisymm (first : labelLe a b = true) (second : labelLe b a = true) : a = b := by
  rw [labelLe_iff] at first second
  rcases first with less | ⟨same, le⟩ <;> rcases second with less' | ⟨same', le'⟩
  · exact absurd (String.lt_trans less less') (String.lt_irrefl _)
  · exact absurd (same' ▸ less) (String.lt_irrefl _)
  · exact absurd (same ▸ less') (String.lt_irrefl _)
  · exact Prod.ext same (String.le_antisymm le le')

theorem pairwise_insertLabel (label : String × String) {labels : List (String × String)}
    (sorted : labels.Pairwise (labelLe · · = true)) :
    (insertLabel label labels).Pairwise (labelLe · · = true) := by
  induction labels with
  | nil => exact List.pairwise_singleton _ _
  | cons l ls ih =>
      obtain ⟨before, rest⟩ := List.pairwise_cons.mp sorted
      unfold insertLabel
      split
      next le =>
        refine List.pairwise_cons.mpr ⟨fun x there => ?_, sorted⟩
        rcases List.mem_cons.mp there with rfl | there
        · exact le
        · exact labelLe_trans le (before x there)
      next later =>
        refine List.pairwise_cons.mpr ⟨fun x there => ?_, ih rest⟩
        rcases List.mem_cons.mp ((insertLabel_perm label ls).mem_iff.mp there) with rfl | there
        · exact labelLe_of_not later
        · exact before x there

theorem pairwise_sortLabels :
    ∀ labels : List (String × String), (sortLabels labels).Pairwise (labelLe · · = true)
  | [] => .nil
  | l :: ls => pairwise_insertLabel l (pairwise_sortLabels ls)

/-- The order in which labels come makes no difference to the sorted ones. -/
theorem sortLabels_eq_of_perm {labels labels' : List (String × String)}
    (perm : labels.Perm labels') : sortLabels labels = sortLabels labels' := by
  have sorted : (sortLabels labels).Perm (sortLabels labels') :=
    ((sortLabels_perm labels).trans perm).trans (sortLabels_perm labels').symm
  exact sorted.eq_of_pairwise (fun _ _ _ _ => labelLe_antisymm) (pairwise_sortLabels labels)
    (pairwise_sortLabels labels')

end Sorting

/-- An identity tells the name, and the labels up to their order, and nothing else. -/
theorem Identity.of_eq_iff {name name' : String} {labels labels' : List (String × String)} :
    Identity.of name labels = .of name' labels' ↔ name = name' ∧ labels.Perm labels' := by
  constructor
  · exact of_of_eq
  · rintro ⟨rfl, perm⟩
    rw [of, of, sortLabels_eq_of_perm perm]

/-! ## Texts among bytes -/

/-- The byte that closes a text. -/
def closingByte : UInt8 := 0xff

/-- The bytes of a text, closed. -/
def closedBytes (s : String) : List UInt8 := s.toUTF8.toList ++ [closingByte]

theorem ofNat_ne_closingByte {n : Nat} (small : n < 0xff) : UInt8.ofNat n ≠ closingByte := by
  intro equal
  have values : n % 256 = 0xff := congrArg UInt8.toNat equal
  omega

/-- No character has the closing byte in it. -/
theorem ne_closingByte_of_mem_utf8EncodeChar {c : Char} {b : UInt8}
    (there : b ∈ String.utf8EncodeChar c) : b ≠ closingByte := by
  simp only [String.utf8EncodeChar] at there
  split_ifs at there with one two three
  all_goals simp only [List.mem_cons, List.not_mem_nil, or_false] at there
  · exact there ▸ ofNat_ne_closingByte (by omega)
  · rcases there with rfl | rfl <;> exact ofNat_ne_closingByte (by omega)
  · rcases there with rfl | rfl | rfl <;> exact ofNat_ne_closingByte (by omega)
  · rcases there with rfl | rfl | rfl | rfl <;> exact ofNat_ne_closingByte (by omega)

/-- The bytes of a text are those of its characters. -/
theorem toUTF8_toList (s : String) :
    s.toUTF8.toList = s.toList.flatMap String.utf8EncodeChar := by
  have bytes : s.toUTF8 = (s.toList.flatMap String.utf8EncodeChar).toByteArray := by
    rw [← List.utf8Encode, ← String.toByteArray_ofList, String.ofList_toList]
    rfl
  rw [Text.toList_eq_data, bytes, List.data_toByteArray]

/-- No text has the closing byte in it. -/
theorem ne_closingByte_of_mem_toUTF8 {s : String} {b : UInt8} (there : b ∈ s.toUTF8.toList) :
    b ≠ closingByte := by
  rw [toUTF8_toList] at there
  obtain ⟨c, -, there⟩ := List.mem_flatMap.mp there
  exact ne_closingByte_of_mem_utf8EncodeChar there

/-- A closed text can be split off whatever follows it. -/
theorem closedBytes_append_inj {s t : String} {more more' : List UInt8} :
    closedBytes s ++ more = closedBytes t ++ more' ↔ s = t ∧ more = more' := by
  constructor
  · intro same
    have inside : ∀ s : String, ∀ b ∈ s.toUTF8.toList, (b ≠ closingByte : Bool) = true :=
      fun _ _ there => decide_eq_true (ne_closingByte_of_mem_toUTF8 there)
    have stop : ∀ more : List UInt8,
        (closingByte :: more).head?.any (fun b => (b ≠ closingByte : Bool)) = false :=
      fun _ => rfl
    simp only [closedBytes, List.append_assoc, List.singleton_append] at same
    have text := congrArg (List.takeWhile fun b => (b ≠ closingByte : Bool)) same
    have rest := congrArg (List.dropWhile fun b => (b ≠ closingByte : Bool)) same
    rw [Text.takeWhile_append_stop (inside s) (stop more),
      Text.takeWhile_append_stop (inside t) (stop more')] at text
    rw [Text.dropWhile_append_stop (inside s) (stop more),
      Text.dropWhile_append_stop (inside t) (stop more')] at rest
    exact ⟨Text.eq_of_toUTF8_toList_eq text, (List.cons.inj rest).2⟩
  · rintro ⟨rfl, rfl⟩
    rfl

/-- The bytes of labels: their keys and values one after the other, each closed. -/
def labelBytes (labels : List (String × String)) : List UInt8 :=
  labels.flatMap fun label => closedBytes label.1 ++ closedBytes label.2

/-- The bytes of labels tell the labels. -/
theorem labelBytes_injective {labels labels' : List (String × String)}
    (same : labelBytes labels = labelBytes labels') : labels = labels' := by
  induction labels generalizing labels' with
  | nil =>
      cases labels' with
      | nil => rfl
      | cons l ls => simp [labelBytes, closedBytes] at same
  | cons l ls ih =>
      cases labels' with
      | nil => simp [labelBytes, closedBytes] at same
      | cons l' ls' =>
          simp only [labelBytes, List.flatMap_cons, List.append_assoc] at same
          obtain ⟨key, same⟩ := closedBytes_append_inj.mp same
          obtain ⟨value, same⟩ := closedBytes_append_inj.mp same
          rw [Prod.ext key value, ih same]

/-! ## Fingerprints -/

/-- A name with a hash of labels. -/
structure Fingerprint where
  /-- The name. -/
  name : String
  /-- The hash of the labels. -/
  labels : UInt64
  deriving DecidableEq

namespace Identity

variable {hash : List UInt8 → UInt64} {fed : Set (List UInt8)}

/-- What is hashed of an identity. -/
def bytes (id : Identity) : List UInt8 := labelBytes id.labels

/-- The fingerprint of an identity. -/
def fingerprint (hash : List UInt8 → UInt64) (id : Identity) : Fingerprint :=
  ⟨id.name, hash id.bytes⟩

/-- Fingerprints tell identities apart, as far as the hash tells apart what it is fed. -/
theorem fingerprint_eq_iff (injective : Set.InjOn hash fed) {id id' : Identity}
    (given : id.bytes ∈ fed) (given' : id'.bytes ∈ fed) :
    id.fingerprint hash = id'.fingerprint hash ↔ id = id' := by
  constructor
  · intro same
    obtain ⟨name, hashes⟩ := Fingerprint.mk.inj same
    have labels : id.labels = id'.labels :=
      labelBytes_injective (injective given given' hashes)
    obtain ⟨_, _⟩ := id
    obtain ⟨_, _⟩ := id'
    exact congrArg₂ mk name labels
  · rintro rfl
    rfl

end Identity

/-! ## A hash

Labels are hashed by SipHash, with one round for each word and three at the end.
-/

/-- The state of a hash. -/
structure SipState where
  v0 : UInt64
  v1 : UInt64
  v2 : UInt64
  v3 : UInt64

/-- A word turned to the left. -/
def rotateLeft (word bits : UInt64) : UInt64 := word <<< bits ||| word >>> (64 - bits)

namespace SipState

/-- The state before anything has come, where both keys are zero. -/
def initial : SipState :=
  ⟨0x736f6d6570736575, 0x646f72616e646f6d, 0x6c7967656e657261, 0x7465646279746573⟩

/-- One round of mixing. -/
def round (s : SipState) : SipState :=
  let v0 := s.v0 + s.v1
  let v1 := rotateLeft s.v1 13 ^^^ v0
  let v2 := s.v2 + s.v3
  let v3 := rotateLeft s.v3 16 ^^^ v2
  let v0 := rotateLeft v0 32 + v3
  let v2 := v2 + v1
  ⟨v0, rotateLeft v1 17 ^^^ v2, rotateLeft v2 32, rotateLeft v3 21 ^^^ v0⟩

/-- Mixes a word in. -/
def mix (s : SipState) (word : UInt64) : SipState :=
  let s := round { s with v3 := s.v3 ^^^ word }
  { s with v0 := s.v0 ^^^ word }

/-- The word of some bytes, the lowest one first. -/
def wordOf (bytes : List UInt8) : UInt64 :=
  bytes.foldr (fun byte word => word <<< 8 ||| byte.toUInt64) 0

/-- Mixes bytes in, eight at a time, and at the end those that are left with a last byte. -/
def mixAll (last : UInt8) (s : SipState) : List UInt8 → SipState
  | a :: b :: c :: d :: e :: f :: g :: h :: rest =>
    mixAll last (s.mix (wordOf [a, b, c, d, e, f, g, h])) rest
  | left => s.mix (wordOf left ||| last.toUInt64 <<< 56)

/-- The hash of a state. -/
def finish (s : SipState) : UInt64 :=
  let s := round (round (round { s with v2 := s.v2 ^^^ 0xff }))
  s.v0 ^^^ s.v1 ^^^ s.v2 ^^^ s.v3

end SipState

/-- The hash of some bytes.  The last byte that is mixed in is their number. -/
def sipHash (bytes : List UInt8) : UInt64 :=
  (SipState.mixAll bytes.length.toUInt8 .initial bytes).finish

/-- The hash of nothing. -/
example : sipHash [] = 0xd1fba762150c532c := by decide +kernel

end Telemetry
