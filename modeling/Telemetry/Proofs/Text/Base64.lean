import Telemetry.Text.Base64

/-!
# Base 64 tells texts apart

Two texts with one form in base 64 are one text.  The characters of base 64 stand
for six bits each, so four of them give three bytes back, and the equals signs
tell how many bytes there are at the end.
-/

namespace Telemetry.Text

/-- A character stands for one group of six bits. -/
theorem sextetChar_injective {m n : Nat} (hm : m < 64) (hn : n < 64)
    (h : sextetChar m = sextetChar n) : m = n := by
  have all : ∀ m < 64, ∀ n < 64, sextetChar m = sextetChar n → m = n := by decide +kernel
  exact all m hm n hn h

theorem sextetChar_ne_filling {n : Nat} (hn : n < 64) : sextetChar n ≠ '=' := by
  have all : ∀ n < 64, sextetChar n ≠ '=' := by decide +kernel
  exact all n hn

/-- A byte is known by its upper six and its lower two bits. -/
theorem byte_ext {a b : UInt8} (high : a.toNat / 4 = b.toNat / 4)
    (low : a.toNat % 4 = b.toNat % 4) : a = b := by
  apply UInt8.toNat_inj.mp
  omega

theorem base64_injective : ∀ {s t : List UInt8}, base64 s = base64 t → s = t
  | [], [], _ => rfl
  | [], [_], h => nomatch h
  | [], [_, _], h => nomatch h
  | [], _ :: _ :: _ :: _, h => nomatch h
  | [_], [], h => nomatch h
  | [_, _], [], h => nomatch h
  | _ :: _ :: _ :: _, [], h => nomatch h
  | [a], [b], h => by
      have ha := a.toNat_lt
      have hb := b.toNat_lt
      simp only [base64, List.cons.injEq, and_true] at h
      have high := sextetChar_injective (by omega) (by omega) h.1
      have low := sextetChar_injective (by omega) (by omega) h.2
      rw [byte_ext high (by omega)]
  | [a], [b, c], h => by
      have hc := c.toNat_lt
      simp only [base64, List.cons.injEq, and_true] at h
      exact absurd h.2.2.symm (sextetChar_ne_filling (by omega))
  | [b, c], [a], h => by
      have hc := c.toNat_lt
      simp only [base64, List.cons.injEq, and_true] at h
      exact absurd h.2.2 (sextetChar_ne_filling (by omega))
  | [a], b :: c :: d :: rest, h => by
      have hd := d.toNat_lt
      simp only [base64, List.cons.injEq] at h
      exact absurd h.2.2.2.1.symm (sextetChar_ne_filling (by omega))
  | b :: c :: d :: rest, [a], h => by
      have hd := d.toNat_lt
      simp only [base64, List.cons.injEq] at h
      exact absurd h.2.2.2.1 (sextetChar_ne_filling (by omega))
  | [a, b], [c, d], h => by
      have ha := a.toNat_lt
      have hb := b.toNat_lt
      have hc := c.toNat_lt
      have hd := d.toNat_lt
      simp only [base64, List.cons.injEq, and_true] at h
      have first := sextetChar_injective (by omega) (by omega) h.1
      have second := sextetChar_injective (by omega) (by omega) h.2.1
      have third := sextetChar_injective (by omega) (by omega) h.2.2
      rw [byte_ext first (by omega), UInt8.toNat_inj.mp (show b.toNat = d.toNat by omega)]
  | [a, b], c :: d :: e :: rest, h => by
      have he := e.toNat_lt
      simp only [base64, List.cons.injEq] at h
      exact absurd h.2.2.2.1.symm (sextetChar_ne_filling (by omega))
  | c :: d :: e :: rest, [a, b], h => by
      have he := e.toNat_lt
      simp only [base64, List.cons.injEq] at h
      exact absurd h.2.2.2.1 (sextetChar_ne_filling (by omega))
  | a :: b :: c :: rest, d :: e :: f :: rest', h => by
      have ha := a.toNat_lt
      have hb := b.toNat_lt
      have hc := c.toNat_lt
      have hd := d.toNat_lt
      have he := e.toNat_lt
      have hf := f.toNat_lt
      simp only [base64, List.cons.injEq] at h
      obtain ⟨h1, h2, h3, h4, h5⟩ := h
      have first := sextetChar_injective (by omega) (by omega) h1
      have second := sextetChar_injective (by omega) (by omega) h2
      have third := sextetChar_injective (by omega) (by omega) h3
      have fourth := sextetChar_injective (by omega) (by omega) h4
      rw [byte_ext first (by omega), UInt8.toNat_inj.mp (show b.toNat = e.toNat by omega),
        UInt8.toNat_inj.mp (show c.toNat = f.toNat by omega), base64_injective h5]

/-! ## The bytes of a text -/

theorem toList_loop_eq (bytes : ByteArray) (i : Nat) (front : List UInt8) :
    ByteArray.toList.loop bytes i front = front.reverse ++ bytes.data.toList.drop i := by
  fun_induction ByteArray.toList.loop bytes i front with
  | case1 i front inside ih =>
      have bound : i < bytes.data.toList.length := by simpa using inside
      have byte : bytes.get! i = bytes.data.toList[i] := by
        rw [Array.getElem_toList]
        exact getElem!_pos bytes.data i inside
      rw [ih, List.drop_eq_getElem_cons bound, byte, List.reverse_cons, List.append_assoc]
      rfl
  | case2 i front outside =>
      rw [List.drop_eq_nil_of_le (by simpa using Nat.le_of_not_lt outside), List.append_nil]

theorem toList_eq_data (bytes : ByteArray) : bytes.toList = bytes.data.toList := by
  rw [ByteArray.toList, toList_loop_eq]
  rfl

/-- The bytes of a text tell the text. -/
theorem eq_of_toUTF8_toList_eq {s t : String} (same : s.toUTF8.toList = t.toUTF8.toList) :
    s = t := by
  rw [toList_eq_data, toList_eq_data] at same
  exact String.toByteArray_inj.mp (ByteArray.ext (Array.toList_inj.mp same))

/-- Two texts with one form in base 64 are one text. -/
theorem base64OfString_injective {s t : String} (h : base64OfString s = base64OfString t) :
    s = t :=
  eq_of_toUTF8_toList_eq (base64_injective (String.ofList_injective h))

end Telemetry.Text
