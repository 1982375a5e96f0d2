import Mathlib.Data.List.Induction
import Telemetry.Exposition.Reading
import Telemetry.Proofs.Exposition.Samples
import Telemetry.Proofs.Lookup

/-!
# What is added to a transcript

A sample is added in one of two ways, by the kind of its name: it stands for itself
(`addSample_of_scalar`), or it is a point of a group (`addSample_of_composite`).
Points of one name and one set of labels come into one group, in order.

Nothing that has been added is taken away: the samples stay in their order, and the
points in their groups.  A group has the title that its name tells (`Titled`).
-/

namespace Telemetry

/-- What stands for itself is exposed under its own name. -/
theorem Kind.pointName_of_scalar {kind : Kind} (scalar : Exposition.hasTotals kind = false)
    (name : String) : kind.pointName name = name := by
  cases kind with
  | histogram => cases scalar
  | _ => rfl

namespace Transcript

/-! ## Samples -/

/-- The value of a sample that stands for itself. -/
def valueOf : Option Kind → Double → Value
  | some .counter => .counter
  | some .gauge => .gauge
  | _ => .untyped

/-- A sample stands for itself unless its name has a kind that is grouped and it has labels. -/
theorem addSample_of_scalar {t : Transcript} {name : String} {labels : Option (List Char)}
    (kind : ∀ kind, t.kinds.get? name = some kind → Exposition.hasTotals kind = true →
      labels = none)
    (x : Double) :
    t.addSample name labels x =
      t.addScalar name ((labels.map Entry.labels).getD .empty) (valueOf (t.kinds.get? name) x) := by
  unfold addSample
  cases found : t.kinds.get? name with
  | none => rfl
  | some k =>
      cases k with
      | histogram =>
          obtain rfl := kind _ found rfl
          rfl
      | summary =>
          obtain rfl := kind _ found rfl
          rfl
      | _ => rfl

theorem addSample_of_composite {t : Transcript} {name : String} {kind : Kind}
    (declared : t.kinds.get? name = some kind) (composite : Exposition.hasTotals kind = true)
    (text : List Char) (x : Double) :
    t.addSample name (some text) x =
      t.addGrouped (decide (kind = .summary)) name (Entry.labels text) x := by
  unfold addSample
  rw [declared]
  cases kind with
  | histogram => rfl
  | summary => rfl
  | _ => cases composite

/-! ## Groups -/

theorem addPoint_of_new {new : Group} {gs : List Group}
    (fresh : ∀ g ∈ gs, g.name = new.name → g.labels ≠ new.labels) (point : Double × Double) :
    addPoint new point gs = gs ++ [{ new with points := [point] }] := by
  induction gs with
  | nil => rfl
  | cons g gs ih =>
      have other := fresh g List.mem_cons_self
      rw [addPoint, if_neg (by simpa using other),
        ih fun g' there => fresh g' (List.mem_cons_of_mem g there)]
      rfl

theorem addPoint_of_last {new : Group} {gs : List Group}
    (fresh : ∀ g ∈ gs, g.name = new.name → g.labels ≠ new.labels)
    (points : List (Double × Double)) (point : Double × Double) :
    addPoint new point (gs ++ [{ new with points := points }]) =
      gs ++ [{ new with points := points ++ [point] }] := by
  induction gs with
  | nil => simp [addPoint]
  | cons g gs ih =>
      have other := fresh g List.mem_cons_self
      rw [List.cons_append, addPoint, if_neg (by simpa using other),
        ih fun g' there => fresh g' (List.mem_cons_of_mem g there)]
      rfl

/-- The points of a new group come together. -/
theorem foldl_addPoint {new : Group} {gs : List Group}
    (fresh : ∀ g ∈ gs, g.name = new.name → g.labels ≠ new.labels)
    {points : List (Double × Double)} (nonempty : points ≠ []) :
    points.foldl (fun gs point => addPoint new point gs) gs =
      gs ++ [{ new with points := points }] := by
  induction points using List.reverseRecOn with
  | nil => exact absurd rfl nonempty
  | append_singleton points point ih =>
      rw [List.foldl_append, List.foldl_cons, List.foldl_nil]
      cases points with
      | nil => exact addPoint_of_new fresh point
      | cons first points => rw [ih (List.cons_ne_nil _ _), addPoint_of_last fresh]

end Transcript

/-! ## Transcripts grow -/

namespace Group

/-- The kind of the metric. -/
def kind (g : Group) : Kind := if g.isSummary then .summary else .histogram

/-- Whether one group is another with more points. -/
structure Within (g g' : Group) : Prop where
  name : g'.name = g.name
  title : g'.title = g.title
  isSummary : g'.isSummary = g.isSummary
  labels : g'.labels = g.labels
  points : g.points ⊆ g'.points

theorem Within.refl (g : Group) : g.Within g := ⟨rfl, rfl, rfl, rfl, List.Subset.refl _⟩

theorem Within.trans {g g' g'' : Group} (first : g.Within g') (second : g'.Within g'') :
    g.Within g'' :=
  ⟨second.name.trans first.name, second.title.trans first.title,
    second.isSummary.trans first.isSummary, second.labels.trans first.labels,
    List.Subset.trans first.points second.points⟩

end Group

namespace Transcript

/-- An old group is still there, and the group of a point is an old one or a new one. -/
theorem mem_addPoint {new : Group} {point : Double × Double} {gs : List Group} :
    (∀ g ∈ gs, ∃ g' ∈ addPoint new point gs, g.Within g') ∧
      (∃ g ∈ addPoint new point gs,
        g.name = new.name ∧ g.labels = new.labels ∧ point ∈ g.points) ∧
        ∀ g' ∈ addPoint new point gs,
          (∃ g ∈ gs, g.Within g') ∨ { new with points := [point] } = g' := by
  induction gs with
  | nil => simp [addPoint]
  | cons g gs ih =>
      obtain ⟨old, here, inversion⟩ := ih
      rw [addPoint]
      split
      next same =>
        have grown : g.Within { g with points := g.points ++ [point] } :=
          ⟨rfl, rfl, rfl, rfl, List.subset_append_left _ _⟩
        refine ⟨fun g' there => ?_, ⟨_, List.mem_cons_self, same.1, same.2, by simp⟩,
          fun g' there => ?_⟩
        · rcases List.mem_cons.mp there with rfl | there
          · exact ⟨_, List.mem_cons_self, grown⟩
          · exact ⟨g', List.mem_cons_of_mem _ there, .refl g'⟩
        · rcases List.mem_cons.mp there with rfl | there
          · exact .inl ⟨g, List.mem_cons_self, grown⟩
          · exact .inl ⟨g', List.mem_cons_of_mem _ there, .refl g'⟩
      next different =>
        refine ⟨fun g' there => ?_, ?_, fun g' there => ?_⟩
        · rcases List.mem_cons.mp there with rfl | there
          · exact ⟨g', List.mem_cons_self, .refl g'⟩
          · obtain ⟨g'', among, within⟩ := old g' there
            exact ⟨g'', List.mem_cons_of_mem g among, within⟩
        · obtain ⟨g', among, own⟩ := here
          exact ⟨g', List.mem_cons_of_mem g among, own⟩
        · rcases List.mem_cons.mp there with rfl | there
          · exact .inl ⟨g', List.mem_cons_self, .refl g'⟩
          · rcases inversion g' there with ⟨g'', among, within⟩ | equal
            · exact .inl ⟨g'', List.mem_cons_of_mem g among, within⟩
            · exact .inr equal

/-- What a sample adds to a transcript: nothing, a sample that stands for itself, or a point. -/
inductive Takes (t : Transcript) (name : String) :
    Option (List Char) → List Char → Transcript → Prop
  | nothing {text : Option (List Char)} {number : List Char} : Takes t name text number t
  | scalar {text : Option (List Char)} {number : List Char} {x : Double}
      (read : Double.read? number = some x) :
      Takes t name text number
        (t.addScalar name ((text.map Entry.labels).getD .empty) (valueOf (t.kinds.get? name) x))
  | point {text number : List Char} {kind : Kind} {bound x : Double}
      (read : Double.read? number = some x) (declared : t.kinds.get? name = some kind)
      (composite : Exposition.hasTotals kind = true)
      (given : ((Entry.labels text).get? kind.pointLabel).bind (fun s => Double.read? s.toList) =
        some bound) :
      Takes t name (some text) number { t with
        groups := addPoint ⟨name, if kind = .summary then name else (t.titles.get? name).getD name,
          decide (kind = .summary), (Entry.labels text).erase kind.pointLabel, []⟩ (bound, x)
            t.groups }

theorem addGrouped_eq (t : Transcript) {kind : Kind} (composite : Exposition.hasTotals kind = true)
    (name : String) (labels : Labels) (x : Double) :
    t.addGrouped (decide (kind = .summary)) name labels x =
      match (labels.get? kind.pointLabel).bind fun s => Double.read? s.toList with
      | none => t
      | some bound => { t with
          groups := addPoint ⟨name,
            if kind = .summary then name else (t.titles.get? name).getD name,
            decide (kind = .summary), labels.erase kind.pointLabel, []⟩ (bound, x) t.groups } := by
  cases kind with
  | histogram => rfl
  | summary => rfl
  | _ => cases composite

theorem takes (t : Transcript) (name : String) (text : Option (List Char)) (number : List Char) :
    t.Takes name text number (t.add (.sample name text number)) := by
  rw [add]
  cases read : Double.read? number with
  | none => exact .nothing
  | some x =>
      dsimp only
      cases text with
      | none =>
          rw [addSample_of_scalar fun _ _ _ => rfl]
          exact .scalar read
      | some text =>
          by_cases composite : ∃ kind, t.kinds.get? name = some kind ∧
              Exposition.hasTotals kind = true
          · obtain ⟨kind, declared, composite⟩ := composite
            rw [addSample_of_composite declared composite, addGrouped_eq t composite]
            cases given : ((Entry.labels text).get? kind.pointLabel).bind
                fun s => Double.read? s.toList with
            | none => exact .nothing
            | some bound => exact .point read declared composite given
          · rw [addSample_of_scalar fun kind found kinds => absurd ⟨kind, found, kinds⟩ composite]
            exact .scalar read

/-! ## Runs -/

theorem groups_add (t : Transcript) (e : Entry) :
    ∀ g ∈ t.groups, ∃ g' ∈ (t.add e).groups, g.Within g' := by
  intro g there
  cases e with
  | help name text => exact ⟨g, there, .refl g⟩
  | type name kind => exact ⟨g, by cases kind <;> exact there, .refl g⟩
  | sample name text number =>
      have takes := t.takes name text number
      generalize t.add (.sample name text number) = t' at takes
      cases takes with
      | nothing => exact ⟨g, there, .refl g⟩
      | scalar => exact ⟨g, there, .refl g⟩
      | point => exact mem_addPoint.1 g there

/-- A group is still there after any entries. -/
theorem groups_foldl_add (entries : List Entry) {t : Transcript} {g : Group}
    (there : g ∈ t.groups) :
    ∃ g' ∈ (entries.foldl add t).groups, g.Within g' := by
  induction entries generalizing t g with
  | nil => exact ⟨g, there, .refl g⟩
  | cons e entries ih =>
      obtain ⟨g', there', within⟩ := groups_add t e g there
      obtain ⟨g'', there'', within'⟩ := ih there'
      exact ⟨g'', there'', within.trans within'⟩

/-- Whether a sample that stands for itself comes of an entry. -/
def Gives (e : Entry) (s : String × Metric) : Prop :=
  ∃ text number x, e = .sample s.1 text number ∧ Double.read? number = some x ∧
    (text.map Entry.labels).getD .empty = s.2.labels ∧ s.2.value.scalar? = some x

theorem scalar?_valueOf (kind : Option Kind) (x : Double) : (valueOf kind x).scalar? = some x := by
  rcases kind with _ | (_ | _ | _ | _ | _) <;> rfl

theorem metrics_add (t : Transcript) (e : Entry) :
    (t.add e).metrics = t.metrics ∨ ∃ s, Gives e s ∧ (t.add e).metrics = s :: t.metrics := by
  cases e with
  | help name text => exact .inl rfl
  | type name kind => cases kind <;> exact .inl rfl
  | sample name text number =>
      have takes := t.takes name text number
      generalize t.add (.sample name text number) = t' at takes
      cases takes with
      | nothing => exact .inl rfl
      | point => exact .inl rfl
      | @scalar _ _ x read =>
          exact .inr ⟨_, ⟨text, number, x, rfl, read, rfl, scalar?_valueOf _ _⟩, rfl⟩

/-- The samples that any entries add come after those that are there. -/
theorem metrics_foldl_add (entries : List Entry) (t : Transcript) :
    ∃ later, (entries.foldl add t).metrics.reverse = t.metrics.reverse ++ later ∧
      ∀ s ∈ later, ∃ e ∈ entries, Gives e s := by
  induction entries generalizing t with
  | nil => exact ⟨[], by simp, nofun⟩
  | cons e entries ih =>
      obtain ⟨later, all, given⟩ := ih (t.add e)
      have among : ∀ s ∈ later, ∃ e' ∈ e :: entries, Gives e' s := by
        intro s there
        obtain ⟨e', member, gives⟩ := given s there
        exact ⟨e', List.mem_cons_of_mem e member, gives⟩
      rw [List.foldl_cons, all]
      rcases metrics_add t e with same | ⟨s, gives, added⟩
      · exact ⟨later, by rw [same], among⟩
      · refine ⟨s :: later, by simp [added], fun s' there => ?_⟩
        rcases List.mem_cons.mp there with rfl | there
        · exact ⟨e, List.mem_cons_self, gives⟩
        · exact among s' there

/-- Whether a transcript knows the titles of histograms. -/
structure Titled (t : Transcript) : Prop where
  titles : ∀ {name}, t.kinds.get? name = some .histogram →
    ∃ title, t.titles.get? name = some title ∧ name = title ++ Bucket.ending
  groups : ∀ g ∈ t.groups, g.name = g.kind.pointName g.title

theorem titled_empty : empty.Titled := ⟨nofun, nofun⟩

/-- The title that points have by the kind of their name. -/
theorem Titled.name {t : Transcript} (titled : t.Titled) {name : String} {kind : Kind}
    (declared : t.kinds.get? name = some kind) (composite : Exposition.hasTotals kind = true) :
    name = kind.pointName (if kind = .summary then name else (t.titles.get? name).getD name) := by
  cases kind with
  | histogram =>
      obtain ⟨title, told, own⟩ := titled.titles declared
      simp [Kind.pointName, told, ← own]
  | summary => rfl
  | _ => cases composite

theorem Titled.setKind {t : Transcript} (titled : t.Titled) (name : String) (kind : Kind) :
    (t.setKind name kind).Titled := by
  have other : ∀ {kind : Kind}, kind ≠ .histogram →
      Titled { t with kinds := t.kinds.insert name kind } := by
    intro kind different
    refine ⟨fun {key} found => ?_, titled.groups⟩
    simp only [Dict.get?_insert] at found
    split at found
    · exact absurd (Option.some.inj found) different
    · exact titled.titles found
  cases kind with
  | histogram =>
      refine ⟨fun {key} found => ?_, titled.groups⟩
      simp only [Transcript.setKind, Dict.get?_insert] at found ⊢
      split
      next same => exact ⟨name, rfl, same⟩
      next different =>
        rw [if_neg different] at found
        exact titled.titles found
  | counter => exact other nofun
  | gauge => exact other nofun
  | summary => exact other nofun
  | untyped => exact other nofun

theorem Titled.add {t : Transcript} (titled : t.Titled) (e : Entry) : (t.add e).Titled := by
  cases e with
  | help name text => exact ⟨titled.titles, titled.groups⟩
  | type name kind => exact titled.setKind name kind
  | sample name text number =>
      have takes := t.takes name text number
      generalize t.add (.sample name text number) = t' at takes
      cases takes with
      | nothing => exact titled
      | scalar => exact ⟨titled.titles, titled.groups⟩
      | @point _ _ kind _ _ _ declared composite _ =>
          refine ⟨titled.titles, fun g there => ?_⟩
          rcases mem_addPoint.2.2 g there with ⟨g', old, within⟩ | rfl
          · have own := titled.groups g' old
            rw [within.name, own, Group.kind, Group.kind, within.isSummary, within.title]
          · have own := titled.name declared composite
            cases kind with
            | histogram => exact own
            | summary => exact own
            | _ => cases composite

theorem titled_foldl_add (entries : List Entry) {t : Transcript} (titled : t.Titled) :
    (entries.foldl add t).Titled := by
  induction entries generalizing t with
  | nil => exact titled
  | cons e entries ih => exact ih (titled.add e)

end Transcript

end Telemetry
