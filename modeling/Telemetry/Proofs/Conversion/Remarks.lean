import Mathlib.Data.List.Induction
import Telemetry.Proofs.Conversion.Defaults

/-!
# Remarks

What a conversion notes does not depend on how far its labels and measurements have
come: a tag and a name are noted for what they are (`remarksOfTag`, `remarksOfName`).
So all remarks can be told beforehand (`Remarked.Notes`).  A conversion that comes to
an end has made all of them, and one that fails has made the first few.

The remarks on a source are counted by two counters of the registry.  Each is made by
the first remark of its kind, and nothing else in the diagnostics is touched
(`Diagnostics.gains_remark`).
-/

namespace Telemetry

/-! ## Remarks that are told beforehand -/

namespace Remarked

variable {α β γ : Type}

/-- Whether a computation makes some remarks if it has a result, and the first of them if it
fails. -/
structure Notes (x : Remarked α) (remarks : List Remark) : Prop where
  /-- No others are made. -/
  begins : x.remarks <+: remarks
  /-- All are made for a result. -/
  ends : ∀ a, x.result = .ok a → x.remarks = remarks

theorem Notes.pure (a : α) : Notes (Pure.pure a) [] := ⟨List.prefix_refl _, fun _ _ => rfl⟩

theorem Notes.fail (e : ConversionError) : Notes (fail e : Remarked α) [] :=
  ⟨List.prefix_refl _, fun _ _ => rfl⟩

theorem Notes.noteIf (condition : Bool) (r : Remark) :
    Notes (noteIf condition r) (if condition then [r] else []) :=
  ⟨List.prefix_refl _, fun _ _ => rfl⟩

theorem Notes.bind {x : Remarked α} {f : α → Remarked β} {remarks more : List Remark}
    (first : Notes x remarks) (rest : ∀ a, Notes (f a) more) :
    Notes (x >>= f) (remarks ++ more) := by
  change Notes (x.bind f) _
  unfold Remarked.bind
  cases made : x.result with
  | error e => exact ⟨first.begins.trans (List.prefix_append _ _), nofun⟩
  | ok a =>
      rw [first.ends a made]
      exact ⟨(List.prefix_append_right_inj _).mpr (rest a).begins,
        fun b ends => congrArg (remarks ++ ·) ((rest a).ends b ends)⟩

theorem Notes.foldlM {f : β → α → Remarked β} {remarks : α → List Remark}
    (each : ∀ b a, Notes (f b a) (remarks a)) (as : List α) (b : β) :
    Notes (as.foldlM f b) (as.flatMap remarks) := by
  induction as generalizing b with
  | nil => exact .pure b
  | cons a as ih =>
      rw [List.foldlM_cons, List.flatMap_cons]
      exact (each b a).bind ih

theorem Notes.mapM {f : α → Remarked β} {remarks : α → List Remark}
    (each : ∀ a, Notes (f a) (remarks a)) (as : List α) :
    Notes (as.mapM f) (as.flatMap remarks) := by
  induction as with
  | nil => exact .pure []
  | cons a as ih =>
      rw [List.mapM_cons, List.flatMap_cons]
      refine (each a).bind fun b => ?_
      simpa using ih.bind fun bs => .pure (b :: bs)

/-- There are at most as many remarks of each kind as are told beforehand. -/
theorem Notes.count_le {x : Remarked α} {remarks : List Remark} (notes : Notes x remarks)
    (r : Remark) : x.remarks.count r ≤ remarks.count r :=
  notes.begins.sublist.count_le r

end Remarked

open Remarked

/-- What is noted of a tag. -/
def remarksOfTag (tag : String × String) : List Remark :=
  if IsKept tag then if sanitize isTagChar tag.1 = tag.1 then [] else [.modified] else [.leftOut]

/-- What is noted of the name of a metric. -/
def remarksOfName (name : String) : List Remark :=
  if sanitize isMetricChar name = name then [] else [.modified]

theorem notes_insertUnique (labels : Labels) (name value : String) :
    Notes (insertUnique labels name value) [] := by
  unfold insertUnique
  split
  · exact .fail _
  · exact .pure _

theorem notes_addTag (labels : Labels) (tag : String × String) :
    Notes (addTag labels tag) (remarksOfTag tag) := by
  unfold addTag remarksOfTag
  split
  next out =>
    have left : ¬IsKept tag := fun kept => by simp [kept.1, kept.2] at out
    rw [if_neg left]
    exact (Notes.noteIf true .leftOut).bind fun _ => .pure labels
  next stays =>
    rw [Bool.or_eq_true, not_or, Bool.not_eq_true, Bool.not_eq_true] at stays
    have noted := (Notes.noteIf (decide (sanitize isTagChar tag.1 ≠ tag.1)) .modified).bind
      fun _ => notes_insertUnique labels (sanitize isTagChar tag.1) tag.2
    rw [if_pos (show IsKept tag from stays)]
    by_cases clean : sanitize isTagChar tag.1 = tag.1 <;> simpa [clean] using noted

theorem notes_insertUnless (labels : Labels) (has : Bool) (name value : String) :
    Notes (if has then pure labels else insertUnique labels name value) [] := by
  cases has with
  | true => exact .pure labels
  | false => exact notes_insertUnique labels name value

theorem notes_commonLabels (e : Envelope) (tags : List (String × String)) :
    Notes (commonLabels e tags) (tags.flatMap remarksOfTag) := by
  rw [commonLabels_eq]
  have noted := (Notes.foldlM notes_addTag tags .empty).bind fun fromTags =>
    (notes_insertUnless fromTags (e.tags.contains sourceLabel) sourceLabel e.sourceId).bind
      fun withSource => notes_insertUnless withSource
        (e.tags.contains instanceLabel || e.instanceId.isEmpty) instanceLabel e.instanceId
  rw [List.append_nil, List.append_nil] at noted
  exact noted

theorem notes_sanitizeName (name : String) : Notes (sanitizeName name) (remarksOfName name) := by
  have noted := (Notes.noteIf (decide (sanitize isMetricChar name ≠ name)) .modified).bind
    fun _ => .pure (sanitize isMetricChar name)
  have same : (if decide (sanitize isMetricChar name ≠ name) then [Remark.modified] else []) ++ [] =
      remarksOfName name := by
    simp [remarksOfName]
  exact same ▸ noted

theorem notes_measurement (name given : String) (labels : Labels) (reading : Reading) :
    Notes (measurement name given labels reading) [] := by
  unfold measurement
  split
  · exact .fail _
  · refine (notes_insertUnique labels givenNameLabel _).bind fun more => ?_
    split
    · exact .fail _
    · exact .pure _

/-! ## Counting remarks -/

namespace Remark

/-- The identity of the counter of a remark on a source. -/
def identity (r : Remark) (sourceId : String) : Identity := .of r.name [(sourceLabel, sourceId)]

theorem identity_inj {r r' : Remark} {sourceId : String} :
    r.identity sourceId = r'.identity sourceId ↔ r = r' := by
  refine ⟨fun same => ?_, fun same => same ▸ rfl⟩
  obtain ⟨names, -⟩ := Identity.of_of_eq same
  cases r <;> cases r'
  case modified.leftOut => exact absurd names (by decide)
  case leftOut.modified => exact absurd names (by decide)
  all_goals rfl

/-- The counter of a remark on a source after some more of them.  None is made for nothing. -/
def counted (r : Remark) (sourceId : String) (n : Nat) (before : Option Counter) :
    Option Counter :=
  if n = 0 then before
  else
    let c := before.getD ⟨r.name, r.help, .ofList [(sourceLabel, sourceId)], 0⟩
    some { c with value := c.value + n.toUInt64 }

theorem counted_counted (r : Remark) (sourceId : String) (n more : Nat)
    (before : Option Counter) :
    r.counted sourceId more (r.counted sourceId n before) = r.counted sourceId (n + more) before := by
  unfold counted
  by_cases none : n = 0
  · simp [none]
  · by_cases none' : more = 0
    · simp [none']
    · simp [none, none', UInt64.add_assoc]

end Remark

namespace Diagnostics

/-- Whether diagnostics have gained a number of remarks of each kind on a source, and are otherwise
as before. -/
structure Gains (d d' : Diagnostics) (sourceId : String) (n : Remark → Nat) : Prop where
  /-- The two counters have grown. -/
  counts : ∀ r : Remark, d'.registry.get? (r.identity sourceId) =
    r.counted sourceId (n r) (d.registry.get? (r.identity sourceId))
  /-- No other counter of the registry has changed. -/
  others : ∀ id, (∀ r : Remark, id ≠ r.identity sourceId) →
    d'.registry.get? id = d.registry.get? id
  /-- No event has been counted. -/
  tally : d'.tally = d.tally

/-- One more remark adds one to its counter. -/
theorem get?_remark_append_singleton (d : Diagnostics) (sourceId : String) (remarks : List Remark)
    (last : Remark) (id : Identity) :
    (d.remark sourceId (remarks ++ [last])).registry.get? id =
      if id = last.identity sourceId then
        last.counted sourceId 1 ((d.remark sourceId remarks).registry.get? id)
      else (d.remark sourceId remarks).registry.get? id := by
  have added : (d.remark sourceId (remarks ++ [last])).registry =
      (d.remark sourceId remarks).registry.add last.name last.help
        [(Remark.sourceLabel, sourceId)] 1 := by
    simp only [remark, List.foldl_append, List.foldl_cons, List.foldl_nil]
  rw [added, Registry.get?_add, ← Remark.identity]
  split
  next same =>
    rw [same]
    rfl
  next => rfl

/-- Each remark adds one to its counter, and does nothing else. -/
theorem gains_remark (d : Diagnostics) (sourceId : String) (remarks : List Remark) :
    d.Gains (d.remark sourceId remarks) sourceId fun r => remarks.count r := by
  induction remarks using List.reverseRecOn with
  | nil => exact ⟨fun _ => rfl, fun _ _ => rfl, rfl⟩
  | append_singleton remarks last ih =>
      refine ⟨fun r => ?_, fun id other => ?_, rfl⟩
      · rw [get?_remark_append_singleton, ih.counts]
        by_cases same : r = last
        · subst same
          simp [Remark.counted_counted]
        · have apart : last ≠ r := fun equal => same equal.symm
          simp [Remark.identity_inj, same, apart]
      · rw [get?_remark_append_singleton, if_neg (other last)]
        exact ih.others id other

end Diagnostics

end Telemetry
