import Telemetry.Proofs.Double.Numerals
import Telemetry.Proofs.Exposition.Spelling

/-!
# The grammar of sample lines

The valid spellings are a grammar of sample lines, and every line that has one is
accepted by the line check.  No other line is.  Each scanner is inverted: what it has
taken is spelled in a valid way, and what it returns is what stands behind it.  For
labels in braces this gives an equivalence (`afterLabels?_eq_some_iff`), from which the
one for lines follows.
-/

namespace Telemetry

open Text

/-! ## What the scanners take -/

theorem exists_gap (s : List Char) : ∃ gap, IsGap gap ∧ s = gap ++ trimStart s :=
  ⟨s.takeWhile isBlank, fun _ there => List.mem_takeWhile_imp there,
    List.takeWhile_append_dropWhile.symm⟩

/-- A name that is split off is the longest one. -/
theorem isName_splitName {allowed : Char → Bool} {s : List Char}
    (given : (splitName allowed s).1.isEmpty = false) :
    IsName allowed (splitName allowed s).1 ∧
      s = (splitName allowed s).1 ++ (splitName allowed s).2 ∧
      (splitName allowed s).2.head?.any allowed = false := by
  unfold splitName at given ⊢
  split at given
  next => cases given
  next start =>
    rw [if_neg start]
    refine ⟨⟨by simpa using given, ?_, fun _ there => List.mem_takeWhile_imp there⟩,
      List.takeWhile_append_dropWhile.symm, head?_dropWhile_stop allowed s⟩
    cases s with
    | nil => cases given
    | cons c s =>
        dsimp only at given ⊢
        rw [List.takeWhile_cons] at given ⊢
        cases start_ : allowed c with
        | true => simpa using start
        | false =>
            rw [start_] at given
            cases given

theorem eq_of_after? {c : Char} {s rest : List Char} (taken : after? c s = some rest) :
    s = c :: rest := by
  cases s with
  | nil => cases taken
  | cons d s =>
      rw [after?] at taken
      split at taken
      next equal =>
        cases taken
        rw [equal]
      next => cases taken

theorem exists_of_afterQuoted? {s rest : List Char} (taken : afterQuoted? s = some rest) :
    ∃ quoted, isQuoted quoted = true ∧ s = quoted ++ '"' :: rest := by
  fun_induction afterQuoted? s with
  | case1 => cases taken
  | case2 s =>
      cases taken
      exact ⟨[], rfl, rfl⟩
  | case3 => cases taken
  | case4 c s ih =>
      obtain ⟨quoted, valid, rfl⟩ := ih taken
      exact ⟨'\\' :: c :: quoted, valid, rfl⟩
  | case5 c s notQuote notBackslash ih =>
      obtain ⟨quoted, valid, rfl⟩ := ih taken
      refine ⟨c :: quoted, ?_, rfl⟩
      rw [isQuoted]
      · exact valid
      · exact notQuote
      · exact notBackslash

/-- What is taken for a label is one, together with the blanks around it. -/
theorem exists_of_afterLabel? {s rest : List Char}
    (taken : afterLabel? (trimStart s) = some rest) :
    ∃ l : LabelSpelling, l.Valid ∧ s = l.text ++ trimStart rest := by
  rw [afterLabel?] at taken
  dsimp only at taken
  split at taken
  next => cases taken
  next given =>
    obtain ⟨name, split, -⟩ := isName_splitName (Bool.eq_false_of_not_eq_true given)
    obtain ⟨value, equals, taken⟩ := Option.bind_eq_some_iff.mp taken
    obtain ⟨quoted, quote, taken⟩ := Option.bind_eq_some_iff.mp taken
    obtain ⟨before, blank, whole⟩ := exists_gap s
    obtain ⟨afterName, blankName, behindName⟩ :=
      exists_gap (splitName isLabelChar (trimStart s)).2
    obtain ⟨beforeQuote, blankValue, behindEquals⟩ := exists_gap value
    obtain ⟨inside, valid, behindQuote⟩ := exists_of_afterQuoted? taken
    obtain ⟨after, blankAfter, behind⟩ := exists_gap rest
    refine ⟨⟨before, _, afterName, beforeQuote, inside, after⟩,
      ⟨blank, name, blankName, blankValue, valid, blankAfter⟩, ?_⟩
    rw [eq_of_after? equals] at behindName
    rw [eq_of_after? quote, behindQuote] at behindEquals
    rw [behindEquals] at behindName
    rw [behindName] at split
    rw [LabelSpelling.text]
    simp only [List.append_assoc, List.cons_append]
    rw [← behind, ← split, ← whole]

/-! ## Labels in braces -/

namespace Spelling

/-- A label and a comma may be put in front of labels in braces. -/
theorem exists_cons {l : LabelSpelling} (label : l.Valid) {labels : List LabelSpelling}
    {closing : List Char} (valid : ValidBraces labels closing) :
    ∃ more ending, ValidBraces more ending ∧
      inner more ending = l.text ++ ',' :: inner labels closing := by
  cases labels with
  | nil =>
      refine ⟨[l], ',' :: closing, ⟨?_, .inr ⟨closing, valid.closing, rfl⟩⟩, ?_⟩
      · exact List.forall_mem_singleton.mpr label
      · rw [inner, List.map_singleton, List.intercalate_singleton]
        rfl
  | cons next labels =>
      refine ⟨l :: next :: labels, closing, ⟨?_, valid.closing⟩, ?_⟩
      · exact List.forall_mem_cons.mpr ⟨label, valid.each⟩
      · rw [inner, List.map_cons, List.map_cons, List.intercalate_cons_cons, inner, List.map_cons]
        simp only [List.append_assoc, List.cons_append, List.nil_append]

/-- What is taken for labels and their brace is spelled in a valid way. -/
theorem exists_of_afterLabels? {s rest : List Char} (taken : afterLabels? s = some rest) :
    ∃ labels closing, ValidBraces labels closing ∧ s = inner labels closing ++ '}' :: rest := by
  fun_induction afterLabels? s with
  | case1 s after closed =>
      cases taken
      obtain ⟨gap, blank, split⟩ := exists_gap s
      rw [closed] at split
      exact ⟨[], gap, ⟨List.forall_mem_nil _, blank⟩, split⟩
  | case2 => cases taken
  | case3 s behind after comma opened found ih =>
      obtain ⟨l, label, split⟩ := exists_of_afterLabel? found
      obtain ⟨labels, closing, valid, rfl⟩ := ih taken
      obtain ⟨more, ending, valid, text⟩ := exists_cons label valid
      refine ⟨more, ending, valid, ?_⟩
      rw [split, comma, text, List.append_assoc, List.cons_append]
  | case4 s behind after brace opened found =>
      cases taken
      obtain ⟨l, label, split⟩ := exists_of_afterLabel? found
      refine ⟨[l], [], ⟨List.forall_mem_singleton.mpr label, .inl rfl⟩, ?_⟩
      rw [split, brace, inner, List.map_singleton, List.intercalate_singleton, List.append_nil]
  | case5 => cases taken

theorem afterLabels?_eq_some_iff {s rest : List Char} :
    afterLabels? s = some rest ↔
      ∃ labels closing, ValidBraces labels closing ∧ s = inner labels closing ++ '}' :: rest := by
  refine ⟨exists_of_afterLabels?, ?_⟩
  rintro ⟨labels, closing, valid, rfl⟩
  exact afterLabels?_inner rest valid

/-! ## Lines -/

/-- The end of a line is a number, and a time stamp if there is more. -/
theorem exists_of_isSampleTail {s : List Char} (accepted : isSampleTail s = true)
    (last : s.getLast?.any isBlank = false) :
    ∃ space number stamp, s = space ++ (number ++ stampText stamp) ∧ IsGap space ∧
      (∀ c ∈ number, isBlank c = false) ∧ (Double.read? number).isSome = true ∧
      ∀ blanks whole, stamp = some (blanks, whole) → blanks ≠ [] ∧ IsGap blanks ∧
        (∀ c ∈ whole, isBlank c = false) ∧ (readInt64? whole).isSome = true := by
  rw [isSampleTail] at accepted
  split at accepted
  next number cut =>
    obtain ⟨space, rest, rfl, blank, -, word, -, none_⟩ := exists_words_cons cut
    obtain rfl := eq_nil_of_words none_ (getLast?_of_append (getLast?_of_append last))
    refine ⟨space, number, none, rfl, blank, word, accepted, ?_⟩
    rintro _ _ ⟨⟩
  next number whole cut =>
    obtain ⟨read, stamped⟩ := Bool.and_eq_true_iff.mp accepted
    obtain ⟨space, rest, rfl, blank, -, word, ends, cut⟩ := exists_words_cons cut
    obtain ⟨blanks, rest, rfl, blanks_, given, wordStamp, -, none_⟩ := exists_words_cons cut
    obtain rfl := eq_nil_of_words none_
      (getLast?_of_append (getLast?_of_append (getLast?_of_append (getLast?_of_append last))))
    refine ⟨space, number, some (blanks, whole), ?_, blank, word, read, ?_⟩
    · rw [stampText, List.append_nil]
    · rintro _ _ ⟨⟩
      refine ⟨?_, blanks_, wordStamp, stamped⟩
      -- Without blanks the two words would be one.
      rintro rfl
      rcases ends with empty | ⟨c, more, equal, blankC⟩
      · exact given (List.append_eq_nil_iff.mp (List.append_eq_nil_iff.mp empty).2).1
      · cases whole with
        | nil => exact given rfl
        | cons d whole =>
            cases equal
            rw [wordStamp c List.mem_cons_self] at blankC
            cases blankC
  next => cases accepted

/-- A line that is accepted is spelled in a valid way. -/
theorem exists_of_isSampleLine {line : List Char} (accepted : isSampleLine line = true)
    (trimmed : trim line = line) : ∃ s : Spelling, s.Valid ∧ s.text = line := by
  have last := getLast?_trim line
  rw [trimmed] at last
  rw [isSampleLine] at accepted
  dsimp only at accepted
  rw [Bool.and_eq_true, Bool.not_eq_true'] at accepted
  obtain ⟨given, accepted⟩ := accepted
  obtain ⟨name, split, ends⟩ := isName_splitName given
  obtain ⟨gap, blank, behind⟩ := exists_gap (splitName isNameChar line).2
  generalize (splitName isNameChar line).1 = first at name split
  generalize (splitName isNameChar line).2 = rest at accepted split ends behind
  rw [split] at last
  split at accepted
  next labels brace =>
    obtain ⟨tail, found, ended⟩ := (Option.any_eq_true _ _).mp accepted
    obtain ⟨spelled, closing, valid, rfl⟩ := exists_of_afterLabels? found
    rw [brace] at behind
    subst behind
    have front : gap ++ '{' :: (inner spelled closing ++ '}' :: tail) =
        gap ++ bracesText (some (spelled, closing)) ++ tail := by
      rw [List.append_assoc, bracesText_append]
    rw [front] at split last ends
    obtain ⟨space, number, stamp, rfl, blank_, word, read, stamped⟩ :=
      exists_of_isSampleTail ended (getLast?_of_append (getLast?_of_append last))
    refine ⟨⟨first, gap, some (spelled, closing), space, number, stamp⟩,
      ⟨name, blank, ?_, ?_, blank_, word, read, stamped⟩, ?_⟩
    · rwa [List.append_assoc] at ends
    · rintro _ _ ⟨⟩
      exact valid
    · rw [split, List.append_assoc]
      rfl
  next unbraced =>
    rw [behind] at split last ends
    obtain ⟨space, number, stamp, tail, blank_, word, read, stamped⟩ :=
      exists_of_isSampleTail accepted (getLast?_of_append (getLast?_of_append last))
    rw [tail] at split ends
    refine ⟨⟨first, gap, none, space, number, stamp⟩,
      ⟨name, blank, ends, ?_, blank_, word, read, stamped⟩, split.symm⟩
    rintro _ _ ⟨⟩

end Spelling

/-- The line check accepts exactly the valid spellings, and the scanner of labels returns
exactly what stands behind the brace that closes them, if there is one.  The numbers of a
spelling are those of the grammar. -/
theorem isSampleLine_iff {line : List Char} (trimmed : trim line = line) :
    (isSampleLine line = true ↔ ∃ s : Spelling, s.Valid ∧ s.text = line) ∧
    (∀ labels rest, afterLabels? labels = some rest ↔
      ∃ spelled closing, Spelling.ValidBraces spelled closing ∧
        labels = Spelling.inner spelled closing ++ '}' :: rest) ∧
    (∀ word, (Double.read? word).isSome = true ↔ IsFloat word) ∧
    ∀ word, (readInt64? word).isSome = true ↔ IsInt64 word := by
  refine ⟨⟨fun accepted => Spelling.exists_of_isSampleLine accepted trimmed, ?_⟩,
    fun _ _ => Spelling.afterLabels?_eq_some_iff, fun _ => Double.isSome_read?_iff,
    fun _ => isSome_readInt64?_iff⟩
  rintro ⟨s, valid, rfl⟩
  exact Spelling.isSampleLine_text valid

/-- Quotes, braces and commas behind backslashes or between quotes belong to the value.  Where
the last quote is one of these, the line has no spelling. -/
theorem isSampleLine_escapedQuotes :
    let whole := "msg \x7b text = \"say \\\"hi\\\", \x7bok\x7d\\\\\" , \x7d -Inf 17".toList
    let endless := "msg\x7btext=\"say \\\"\x7d 1".toList
    (trim whole = whole ∧ ∃ s : Spelling, s.Valid ∧ s.text = whole) ∧
      trim endless = endless ∧ ¬ ∃ s : Spelling, s.Valid ∧ s.text = endless := by
  intro whole endless
  have trimmed : trim whole = whole := by decide
  have trimmed' : trim endless = endless := by decide
  refine ⟨⟨trimmed, (isSampleLine_iff trimmed).1.mp (by decide +kernel)⟩, trimmed', ?_⟩
  rw [← (isSampleLine_iff trimmed').1]
  decide +kernel

end Telemetry
