import Telemetry.Proofs.Exposition.Grammar
import Telemetry.Proofs.Exposition.Outcome
import Telemetry.Proofs.Scrape.Isolation
import Telemetry.Proofs.Text.Utf8

/-!
# Bodies of any bytes

A target may answer with bytes that are no text.  They are read all the same, with a
replacement for what is not valid, so it is the text they are read as that decides what
comes of a scrape (`Decides`).

A line that is accepted has no replacement in a name, a number or a time stamp, since the
grammar of these parts has none (`Spelling.replacement_not_mem_outside`).  Nothing keeps it
out of a comment or the value of a label, and there bytes that are not valid go by unseen.
-/

namespace Telemetry

open Text

/-! ## Lines -/

theorem replacement_not_mem_digits {s : List Char} (digits : ∀ c ∈ s, isDigit c = true) :
    replacement ∉ s := fun there => absurd (digits _ there) (by decide)

theorem replacement_not_mem_sign {s : List Char} (signed : IsSign s) : replacement ∉ s := by
  cases signed <;> decide

theorem replacement_not_mem_word {word : String} {s : List Char} (isWord : IsWord word s)
    (absent : replacement ∉ word.toList) : replacement ∉ s := by
  intro there
  have lower : replacement.toLower = replacement := by decide
  refine absurd (List.mem_map_of_mem (f := Char.toLower) there) ?_
  rwa [lower, isWord]

theorem replacement_not_mem_exponent {s : List Char} (exponent : IsExponent s) :
    replacement ∉ s := by
  cases exponent with
  | absent => exact List.not_mem_nil
  | given mark sign digits =>
      rw [List.mem_cons, List.mem_append, not_or, not_or]
      refine ⟨?_, replacement_not_mem_sign sign, replacement_not_mem_digits digits.all⟩
      rcases mark with rfl | rfl <;> decide

theorem replacement_not_mem_float {s : List Char} (float : IsFloat s) : replacement ∉ s := by
  cases float with
  | infinite sign word =>
      rw [List.mem_append, not_or]
      refine ⟨replacement_not_mem_sign sign, ?_⟩
      rcases word with word | word
      · exact replacement_not_mem_word word (by decide)
      · exact replacement_not_mem_word word (by decide)
  | nan sign word =>
      rw [List.mem_append, not_or]
      exact ⟨replacement_not_mem_sign sign, replacement_not_mem_word word (by decide)⟩
  | decimal sign decimal =>
      rw [List.mem_append, not_or]
      refine ⟨replacement_not_mem_sign sign, ?_⟩
      cases decimal with
      | whole digits exponent =>
          rw [List.mem_append, not_or]
          exact ⟨replacement_not_mem_digits digits.all, replacement_not_mem_exponent exponent⟩
      | point whole fraction _ exponent =>
          rw [List.mem_append, List.mem_cons, List.mem_append, not_or, not_or, not_or]
          exact ⟨replacement_not_mem_digits whole, by decide,
            replacement_not_mem_digits fraction, replacement_not_mem_exponent exponent⟩

theorem replacement_not_mem_int64 {s : List Char} (whole : IsInt64 s) : replacement ∉ s := by
  cases whole with
  | positive sign digits _ =>
      rw [List.mem_append, not_or]
      refine ⟨?_, replacement_not_mem_digits digits.all⟩
      rcases sign with rfl | rfl <;> decide
  | negative digits _ =>
      rw [List.mem_cons, not_or]
      exact ⟨by decide, replacement_not_mem_digits digits.all⟩

theorem replacement_not_mem_name {allowed : Char → Bool} {s : List Char} (name : IsName allowed s)
    (foreign : allowed replacement = false) : replacement ∉ s := fun there =>
  Bool.false_ne_true (foreign.symm.trans (name.all _ there))

theorem replacement_not_mem_gap {s : List Char} (gap : IsGap s) : replacement ∉ s :=
  fun there => absurd (gap _ there) (by decide)

/-- A label with nothing between its quotes. -/
def LabelSpelling.emptied (l : LabelSpelling) : LabelSpelling := { l with quoted := [] }

namespace Spelling

/-- The line with nothing between quotes. -/
def outside (s : Spelling) : List Char :=
  ({ s with braces := s.braces.map fun b => (b.1.map LabelSpelling.emptied, b.2) } : Spelling).text

theorem replacement_not_mem_label {l : LabelSpelling} (valid : l.Valid) :
    replacement ∉ l.emptied.text := by
  simp only [LabelSpelling.text, LabelSpelling.emptied, List.nil_append, List.mem_append,
    List.mem_cons, not_or]
  exact ⟨replacement_not_mem_gap valid.before, replacement_not_mem_name valid.name (by decide),
    replacement_not_mem_gap valid.afterName, by decide,
    replacement_not_mem_gap valid.beforeQuote, by decide, by decide,
    replacement_not_mem_gap valid.after⟩

theorem replacement_not_mem_braces {labels : List LabelSpelling} {closing : List Char}
    (valid : ValidBraces labels closing) :
    replacement ∉ bracesText (some (labels.map LabelSpelling.emptied, closing)) := by
  have ending : replacement ∉ closing := by
    have given := valid.closing
    split at given
    · exact replacement_not_mem_gap given
    · rcases given with rfl | ⟨blanks, blank, rfl⟩
      · exact List.not_mem_nil
      · rw [List.mem_cons, not_or]
        exact ⟨by decide, replacement_not_mem_gap blank⟩
  rw [bracesText, inner, List.cons_append, List.mem_cons, List.mem_append, List.mem_append,
    List.mem_singleton, not_or, not_or, not_or]
  refine ⟨by decide, ⟨fun there => ?_, ending⟩, by decide⟩
  rcases mem_intercalate there with comma | ⟨text, among, there⟩
  · exact absurd comma (by decide)
  · rw [List.map_map] at among
    obtain ⟨l, label, rfl⟩ := List.mem_map.mp among
    exact replacement_not_mem_label (valid.each l label) there

/-- What stands for bytes that are not valid is no part of a sample, but between quotes. -/
theorem replacement_not_mem_outside {s : Spelling} (valid : s.Valid) :
    replacement ∉ s.outside := by
  simp only [outside, text, rest, List.mem_append, not_or]
  refine ⟨replacement_not_mem_name valid.name (by decide), replacement_not_mem_gap valid.gap, ?_,
    replacement_not_mem_gap valid.space, ?_, ?_⟩
  · cases braces : s.braces with
    | none => exact List.not_mem_nil
    | some given => exact replacement_not_mem_braces (valid.braces _ _ braces)
  · exact replacement_not_mem_float (Double.isSome_read?_iff.mp valid.number)
  · cases stamp : s.stamp with
    | none => exact List.not_mem_nil
    | some given =>
        obtain ⟨-, blank, -, whole⟩ := valid.stamp _ _ stamp
        rw [stampText, List.mem_append, not_or]
        exact ⟨replacement_not_mem_gap blank,
          replacement_not_mem_int64 (isSome_readInt64?_iff.mp whole)⟩

end Spelling

namespace Exposition

/-- Whether a line is blank, a comment, or a sample without a replacement outside of quotes. -/
inductive Sheltered (line : List Char) : Prop
  | blank : trim line = [] → Sheltered line
  | comment : (trim line).head? = some '#' → Sheltered line
  | sample {s : Spelling} : s.Valid → s.text = trim line → replacement ∉ s.outside → Sheltered line

/-- An exposition that is accepted has replacements in comments and between quotes only. -/
theorem sheltered_of_read {order : VisitOrder} {body : List Char} {families : List Family}
    (read : readIn order body = .ok families) : ∀ line ∈ Text.lines body, Sheltered line := by
  intro line there
  rw [readIn] at read
  dsimp only at read
  split at read
  next => cases read
  next accepted =>
    have sound := firstInvalid?_eq_none_iff.mp accepted line there
    by_cases blank : trim line = []
    · exact .blank blank
    by_cases comment : (trim line).head? = some '#'
    · exact .comment comment
    have sample : isSampleLine (trim line) = true := by
      by_contra malformed
      exact sound ⟨blank, comment, Bool.eq_false_iff.mpr malformed⟩
    obtain ⟨s, valid, text⟩ := Spelling.exists_of_isSampleLine sample (trim_trim line)
    exact .sample valid text (Spelling.replacement_not_mem_outside valid)

end Exposition

namespace Scrape

/-! ## Outcomes -/

/-- Whether the bytes of a body decide what comes of a scrape, over a registry that shows a number
of failures of the target. -/
structure Decides (order : Exposition.VisitOrder) (defaults : Dict String) (t : Target)
    (bytes : List UInt8) (r : Registry) (n : UInt64) (outcome : Target × Scraped) : Prop where
  /-- If the text of the bytes is accepted, the families come in, relabelled, and nothing is
  counted. -/
  accepted : ∀ read, Exposition.readIn order (ofBytes bytes) = .ok read →
    List.Forall₂ (Relabelled defaults t) read (Scraper.familiesOf outcome) ∧
      Scraper.countOutcome r outcome = r
  /-- If it is refused, no family comes in, and one failure of the target is counted and nothing
  else. -/
  refused : ∀ e, Exposition.readIn order (ofBytes bytes) = .error e →
    Scraper.familiesOf outcome = [] ∧
      (Scraper.countOutcome r outcome).get? (failuresId t.sourceId) =
        some (failuresCounter t.sourceId (n + 1)) ∧
      ∀ id ≠ failuresId t.sourceId, (Scraper.countOutcome r outcome).get? id = r.get? id
  /-- The text of valid bytes is the one they encode, without a byte order mark. -/
  valid : ∀ text, bytes = encode text →
    ofBytes bytes = if text.head? = some byteOrderMark then text.tail else text
  /-- In that of others there is a replacement, unless they are read in pairs. -/
  invalid : (∀ text, bytes ≠ encode text) → IsMarked16 bytes ∨ replacement ∈ ofBytes bytes
  /-- If it is accepted all the same, the replacements are in comments and between quotes. -/
  sheltered : ∀ read, Exposition.readIn order (ofBytes bytes) = .ok read →
    ∀ line ∈ Text.lines (ofBytes bytes), Exposition.Sheltered line

/-- What comes of a scrape that is answered with success is decided by the text that the bytes of
the body are read as, be they valid or not. -/
theorem decides_outcome (order : Exposition.VisitOrder) (defaults : Dict String) (t : Target)
    {status : Nat} (success : 200 ≤ status ∧ status < 300) (bytes : List UInt8) {r : Registry}
    {n : UInt64}
    (there : r.get? (failuresId t.sourceId) = some (failuresCounter t.sourceId n)) :
    Decides order defaults t bytes r n
      (t, scrapeIn order defaults t (.answered status bytes)) := by
  have successful : isSuccess status = true := by
    rw [isSuccess, Bool.and_eq_true, decide_eq_true_eq, decide_eq_true_eq]
    exact success
  refine ⟨fun read given => ?_, fun e given => ?_, ?_, mem_ofBytes, fun read given =>
    Exposition.sheltered_of_read given⟩
  · have scraped : scrapeIn order defaults t (.answered status bytes) =
        .ok (read.map (relabel (targetLabels defaults t))) := by
      rw [scrapeIn, readTransferIn, if_pos successful, given]
      rfl
    rw [scraped]
    refine ⟨?_, rfl⟩
    change List.Forall₂ _ read (read.map _)
    rw [List.forall₂_map_right_iff, List.forall₂_same]
    exact fun f _ => relabelled_relabel defaults t f
  · have scraped : scrapeIn order defaults t (.answered status bytes) =
        .error (.exposition e) := by
      rw [scrapeIn, readTransferIn, if_pos successful, given]
      rfl
    rw [scraped]
    exact ⟨rfl, get?_countFailure there, fun id other => get?_countFailure_of_ne r other⟩
  · rintro text rfl
    exact ofBytes_encode text

/-- A target without labels of its own. -/
def plainTarget : Target := ⟨"svc", 8080, "http", "/metrics", .empty, .empty, none⟩

/-- What comes of a scrape of it. -/
def plainOutcome (bytes : List UInt8) : Target × Scraped :=
  (plainTarget, scrapeIn ⟨id, id, id⟩ .empty plainTarget (.answered 200 bytes))

/-- A sample with a byte between its quotes that starts no character. -/
def strayByte : List UInt8 := encode "up\x7ba=\"".toList ++ 0xff :: encode "\"\x7d 1".toList

/-- In a name the byte is refused, and counted. -/
theorem decides_strayByte :
    let r := createFailures .empty plainTarget
    let bytes := 0xff :: strayByte
    (200 ≤ 200 ∧ 200 < 300) ∧
      r.get? (failuresId plainTarget.sourceId) = some (failuresCounter plainTarget.sourceId 0) ∧
      Decides ⟨id, id, id⟩ .empty plainTarget bytes r 0 (plainOutcome bytes) ∧
      (Scraper.countOutcome r (plainOutcome bytes)).get? (failuresId plainTarget.sourceId) =
        some (failuresCounter plainTarget.sourceId 1) := by
  intro r bytes
  have success : 200 ≤ 200 ∧ 200 < 300 := by decide
  have there : r.get? (failuresId plainTarget.sourceId) =
      some (failuresCounter plainTarget.sourceId 0) := rfl
  have decides := decides_outcome ⟨id, id, id⟩ .empty plainTarget success bytes there
  have refused : Exposition.readIn ⟨id, id, id⟩ (ofBytes bytes) = .error (.invalidLine 1) := by
    decide +kernel
  exact ⟨success, there, decides, (decides.refused _ refused).2.1⟩

/-- Between quotes it is not: though the bytes are no text, the sample is shown with a replacement,
and no failure is counted. -/
theorem strayByte_accepted :
    (∀ text, strayByte ≠ encode text) ∧
      Scraper.familiesOf (plainOutcome strayByte) = [⟨"up", none, .untyped,
        [⟨.ofList [("a", "\ufffd"), ("source_id", "svc")], .untyped (.ofNat 1)⟩]⟩] ∧
      Scraper.countOutcome (createFailures .empty plainTarget) (plainOutcome strayByte) =
        createFailures .empty plainTarget := by
  refine ⟨fun text same => ?_, by decide +kernel, ?_⟩
  · have unread : utf8? strayByte = none := by decide +kernel
    rw [utf8?_eq_some_iff.mpr same] at unread
    cases unread
  · have succeeded : isFailure (plainOutcome strayByte) = false := by decide +kernel
    rw [countOutcome_eq, succeeded]
    rfl

end Scrape

end Telemetry
