import Telemetry.Proofs.Exposition.Clean

/-!
# Texts that are exposed

The help of a family and the values of labels may be any texts, with line feeds, quotes,
braces and backslashes in them.  None of them ends a line or a label, or starts one: the
lines of an exposition are those of its families, one by one, and what stands between the
quotes of a sample is what its labels have, escaped (`lines_exposition_unforged`).

What stands between quotes is found by a scan of its own (`quotedSpans`), which knows
nothing of names, commas and braces.  On labels that are spelled in a valid way it finds
their values (`Spelling.quotedSpans_inner`).
-/

namespace Telemetry

open Text

/-! ## Escapes -/

/-- A text with another one put for each occurrence of a character. -/
def replaced (c : Char) (other s : List Char) : List Char :=
  s.flatMap fun d => if d = c then other else [d]

/-- A value is escaped by three replacements, one after the other, of which the one of backslashes
comes first. -/
theorem escapeLabelValue_eq_replaced (s : List Char) :
    escapeLabelValue s =
      replaced '\n' ['\\', 'n'] (replaced '"' ['\\', '"'] (replaced '\\' ['\\', '\\'] s)) := by
  rw [replaced, replaced, replaced, List.flatMap_assoc, List.flatMap_assoc, escapeLabelValue]
  refine List.flatMap_congr fun c _ => ?_
  split
  next => rfl
  next => rfl
  next => rfl
  next backslash quote feed =>
    rw [if_neg backslash, List.flatMap_singleton, if_neg quote, List.flatMap_singleton,
      if_neg feed]

/-! ## Texts between quotes -/

/-- The texts between quotes from a place outside of them, or from inside one that has been read so
far.  Inside, a backslash takes the next character with it. -/
def spansFrom : Option (List Char) → List Char → List (List Char)
  | _, [] => []
  | none, '"' :: s => spansFrom (some []) s
  | none, _ :: s => spansFrom none s
  | some span, '"' :: s => span :: spansFrom none s
  | some span, '\\' :: c :: s => spansFrom (some (span ++ ['\\', c])) s
  | some span, c :: s => spansFrom (some (span ++ [c])) s

/-- The texts between quotes. -/
def quotedSpans (s : List Char) : List (List Char) := spansFrom none s

theorem spansFrom_append_of_isQuoted (rest : List Char) {quoted : List Char}
    (valid : isQuoted quoted = true) (span : List Char) :
    spansFrom (some span) (quoted ++ '"' :: rest) = (span ++ quoted) :: spansFrom none rest := by
  fun_induction isQuoted quoted generalizing span with
  | case1 => rw [List.nil_append, spansFrom, List.append_nil]
  | case2 => cases valid
  | case3 => cases valid
  | case4 c s ih =>
      rw [List.cons_append, List.cons_append, spansFrom, ih valid, List.append_assoc]
      rfl
  | case5 c s notQuote notBackslash ih =>
      rw [List.cons_append, spansFrom, ih valid, List.append_assoc]
      · rfl
      · exact notQuote
      · exact fun _ _ equal => absurd equal notBackslash

theorem spansFrom_append_of_ne (rest : List Char) :
    ∀ {front : List Char}, (∀ c ∈ front, c ≠ '"') →
      spansFrom none (front ++ rest) = spansFrom none rest
  | [], _ => rfl
  | c :: front, outside => by
      obtain ⟨notQuote, outside⟩ := List.forall_mem_cons.mp outside
      rw [List.cons_append, spansFrom, spansFrom_append_of_ne rest outside]
      exact notQuote

theorem ne_quote_of_isGap {gap : List Char} (blank : IsGap gap) : ∀ c ∈ gap, c ≠ '"' := by
  rintro c there rfl
  exact absurd (blank _ there) (by decide)

theorem ne_quote_of_isName {name : List Char} (h : IsName isLabelChar name) :
    ∀ c ∈ name, c ≠ '"' :=
  fun c there => of_isNameChar (· ≠ '"') (by decide) (isNameChar_of_isLabelChar (h.all c there))

theorem LabelSpelling.spansFrom_text {l : LabelSpelling} (valid : l.Valid) (rest : List Char) :
    spansFrom none (l.text ++ rest) = l.quoted :: spansFrom none rest := by
  rw [text]
  simp only [List.append_assoc, List.cons_append]
  rw [spansFrom_append_of_ne _ (ne_quote_of_isGap valid.before),
    spansFrom_append_of_ne _ (ne_quote_of_isName valid.name),
    spansFrom_append_of_ne _ (ne_quote_of_isGap valid.afterName), spansFrom,
    spansFrom_append_of_ne _ (ne_quote_of_isGap valid.beforeQuote), spansFrom,
    spansFrom_append_of_isQuoted _ valid.quoted, List.nil_append,
    spansFrom_append_of_ne _ (ne_quote_of_isGap valid.after)]
  decide

namespace Spelling

theorem spansFrom_intercalate (rest : List Char) :
    ∀ {labels : List LabelSpelling}, (∀ l ∈ labels, l.Valid) →
      spansFrom none (List.intercalate [','] (labels.map (·.text)) ++ rest) =
        labels.map (·.quoted) ++ spansFrom none rest
  | [], _ => rfl
  | [l], valid => by
      rw [List.map_singleton, List.intercalate_singleton]
      exact LabelSpelling.spansFrom_text (valid l List.mem_cons_self) rest
  | l :: next :: labels, valid => by
      obtain ⟨label, others⟩ := List.forall_mem_cons.mp valid
      have comma : ∀ s, spansFrom none (',' :: s) = spansFrom none s := fun s =>
        spansFrom_append_of_ne s (by decide : ∀ c ∈ [','], c ≠ '"')
      have more := spansFrom_intercalate rest others
      rw [List.map_cons] at more
      rw [List.map_cons, List.map_cons, List.intercalate_cons_cons, List.append_assoc,
        List.append_assoc, LabelSpelling.spansFrom_text label, List.singleton_append, comma, more]
      rfl

/-- What stands between the quotes of labels are their values. -/
theorem quotedSpans_inner {labels : List LabelSpelling} {closing : List Char}
    (valid : ValidBraces labels closing) :
    quotedSpans (inner labels closing) = labels.map (·.quoted) := by
  have outside : ∀ c ∈ closing, c ≠ '"' := by
    have ends := valid.closing
    split at ends
    next => exact ne_quote_of_isGap ends
    next =>
      rcases ends with rfl | ⟨blanks, blank, rfl⟩
      · exact List.forall_mem_nil _
      · exact List.forall_mem_cons.mpr ⟨by decide, ne_quote_of_isGap blank⟩
  have nothing := spansFrom_append_of_ne [] outside
  rw [List.append_nil] at nothing
  rw [quotedSpans, inner, spansFrom_intercalate closing valid.each, nothing, spansFrom,
    List.append_nil]

end Spelling

/-! ## Samples -/

/-- Whether a sample is written so that its line is accepted, and everything in its braces is what
its labels have. -/
structure Sample.Unforged (s : Sample) : Prop where
  accepted : isSampleLine s.text = true
  /-- Without labels there are no braces. -/
  bare : s.labels = [] → s.text = s.name.toList ++ ' ' :: s.value.text
  /-- With labels they are all that is scanned as labels, up to the number, and their values stand
  between the quotes. -/
  braced : s.labels ≠ [] → ∃ inside,
    s.text = s.name.toList ++ '{' :: (inside ++ '}' :: ' ' :: s.value.text) ∧
    afterLabels? (inside ++ '}' :: ' ' :: s.value.text) = some (' ' :: s.value.text) ∧
    (quotedSpans inside).map unescape = s.labels.map (·.2.toList)

theorem Sample.unforged {s : Sample} (named : s.Named) : s.Unforged where
  accepted := isSampleLine_text named
  bare := by
    intro none_
    rw [text, none_, labelsText, List.isEmpty_nil, if_pos rfl, List.append_nil]
  braced := by
    intro given
    have braces : s.spelling.braces = some (s.labels.map labelSpelling, []) := by
      rw [spelling]
      dsimp only
      rw [if_neg (by simpa using given)]
    have valid := (valid_spelling named).braces _ _ braces
    refine ⟨Spelling.inner (s.labels.map labelSpelling) [], ?_,
      Spelling.afterLabels?_inner _ valid, ?_⟩
    · rw [← text_spelling, Spelling.text, Spelling.rest, braces, Spelling.bracesText_append]
      simp only [spelling, Spelling.stampText, List.nil_append, List.append_nil,
        List.singleton_append]
    · rw [Spelling.quotedSpans_inner valid, List.map_map, List.map_map]
      exact List.map_congr_left fun l _ => unescape_escape l.2.toList

/-! ## Metrics -/

/-- The bounds that a distribution is exposed with. -/
def Distribution.bounds (d : Distribution) : List Double :=
  d.buckets.map (·.upperBound) ++
    if d.buckets.getLast?.map (·.upperBound) = some (.infinity false) then []
    else [.infinity false]

theorem Distribution.isClosed_iff {d : Distribution} :
    d.isClosed = true ↔ d.buckets.getLast?.map (·.upperBound) = some (.infinity false) := by
  rw [isClosed]
  cases d.buckets.getLast? with
  | none => simp
  | some b => simp [Double.isInfinite]

theorem Distribution.map_upperBound_closed (d : Distribution) :
    d.closed.buckets.map (·.upperBound) = d.bounds := by
  rw [closed, bounds]
  cases closed : d.isClosed with
  | true => rw [if_pos rfl, if_pos (isClosed_iff.mp closed), List.append_nil]
  | false =>
      have finite := mt isClosed_iff.mpr (Bool.eq_false_iff.mp closed)
      rw [if_neg Bool.false_ne_true, if_neg finite, List.map_append]
      rfl

namespace Value

/-- The labels that the samples of a value have besides those of its metric. -/
def extras : Value → List (Option (String × String))
  | histogram d => d.bounds.map (fun x => some (Bucket.label, boundText x)) ++ [none, none]
  | summary d =>
    d.quantiles.map (fun q => some (Quantile.label, boundText q.quantile)) ++ [none, none]
  | _ => [none]

/-- The number of lines of a value. -/
def lineCount : Value → Nat
  | histogram d =>
    d.buckets.length +
      if d.buckets.getLast?.map (·.upperBound) = some (.infinity false) then 2 else 3
  | summary d => d.quantiles.length + 2
  | _ => 1

theorem length_extras (v : Value) : v.extras.length = v.lineCount := by
  cases v with
  | histogram d =>
      rw [extras, lineCount, Distribution.bounds]
      split
      · simp
      · simp
  | summary d => simp [extras, lineCount]
  | _ => rfl

end Value

namespace Metric

/-- Each sample of a metric has its labels, and behind them that of a bound or a share if it is
one. -/
theorem map_labels_samples (m : Metric) (name : String) :
    (m.samples name).map (·.labels) =
      m.value.extras.map fun extra => m.labels.toList ++ extra.toList := by
  obtain ⟨labels, value⟩ := m
  cases value with
  | histogram d =>
      simp [samples, totalSamples, Value.extras, Distribution.bucketSamples_eq,
        ← Distribution.map_upperBound_closed]
  | summary d => simp [samples, totalSamples, Value.extras]
  | _ => simp [samples, Value.extras]

theorem length_samples (m : Metric) (name : String) :
    (m.samples name).length = m.value.lineCount := by
  rw [← Value.length_extras, ← List.length_map (f := (·.labels)), map_labels_samples,
    List.length_map]

end Metric

/-! ## Families -/

theorem Family.map_text_lines (f : Family) :
    f.lines.map Line.text =
      (f.help.toList.map fun help =>
        "# HELP ".toList ++ f.name.toList ++ ' ' :: escapeHelp help.toList) ++
      ["# TYPE ".toList ++ f.name.toList ++ ' ' :: f.kind.word.toList] ++
      f.metrics.flatMap fun m => (m.samples f.name).map (·.text) := by
  rw [lines, List.map_append, List.map_append, List.map_map, List.map_map, List.map_flatMap]
  rfl

/-- Whatever the help of families and the values of labels are, the lines of the exposition are a
line for each help, a line for the kind of each family, and as many as the metrics have samples,
before the empty one that is cut off at the end.  Each sample has the labels of its metric, by
ascending names, and nothing else is found in its line. -/
theorem lines_exposition_unforged {families : List Family} (named : ∀ f ∈ families, f.Named) :
    Text.lines (exposition families) =
      (families.flatMap fun f =>
        (f.help.toList.map fun help =>
          "# HELP ".toList ++ f.name.toList ++ ' ' :: escapeHelp help.toList) ++
        ["# TYPE ".toList ++ f.name.toList ++ ' ' :: f.kind.word.toList] ++
        f.metrics.flatMap fun m => (m.samples f.name).map (·.text)) ++ [[]] ∧
    ∀ f ∈ families, ∀ m ∈ f.metrics,
      (m.samples f.name).length = m.value.lineCount ∧
      ((m.samples f.name).map (·.labels) =
        m.value.extras.map fun extra => m.labels.toList ++ extra.toList) ∧
      ∀ s ∈ m.samples f.name, s.Unforged := by
  constructor
  · rw [lines_exposition, List.map_flatMap]
    · exact congrArg (· ++ [[]]) (List.flatMap_congr fun f _ => f.map_text_lines)
    · intro line there
      obtain ⟨f, member, there⟩ := List.mem_flatMap.mp there
      exact (named f member).line line there
  · intro f member m metric
    refine ⟨m.length_samples f.name, m.map_labels_samples f.name, fun s there => ?_⟩
    exact Sample.unforged
      (Metric.named_samples (named f member).name ((named f member).labels m metric) s there)

/-- Families with texts that look like lines, ends of labels, and escapes. -/
def unruly : List Family :=
  let labels : Labels :=
    .ofList [("a", "\\\\\\"), ("b", "\\\"\\\n\x7d 1\n# TYPE b counter"), ("c", ",d=\"\x7b")]
  [⟨"rpc:a", some "one\ntwo\\n \\", .untyped, [⟨labels, .untyped (.nan true)⟩, ⟨.empty,
      .histogram ⟨[⟨.infinity false, .ofNat 1⟩, ⟨.nan false, .ofNat 1⟩], .ofNat 3, .ofNat 7⟩⟩]⟩,
    ⟨"rpc:b", none, .gauge, [⟨labels, .summary ⟨[⟨.infinity true, .ofNat 2⟩], .ofNat 1,
      .infinity true⟩⟩, ⟨labels, .histogram ⟨[⟨.infinity false, .ofNat 4⟩], .ofNat 4, .ofNat 9⟩⟩]⟩]

/-- They have fifteen lines, however many line feeds there are in their texts. -/
theorem lines_exposition_unruly :
    (∀ f ∈ unruly, f.Named) ∧
    (Text.lines (exposition unruly)).length = 16 ∧
    ∀ f ∈ unruly, ∀ m ∈ f.metrics, ∀ s ∈ m.samples f.name, s.Unforged := by
  have named : ∀ f ∈ unruly, f.Named := by decide
  obtain ⟨lines, metrics⟩ := lines_exposition_unforged named
  refine ⟨named, ?_, fun f member m metric => (metrics f member m metric).2.2⟩
  rw [lines]
  decide

end Telemetry
