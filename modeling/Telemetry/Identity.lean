/-!
# Identities

An *identity* is a name with labels in no order.  Two lists of labels give the
same identity when one is a rearrangement of the other, so a label that stands
twice counts twice.  The labels are kept sorted by key and then by value, which
makes the identity of a metric a plain value that can be compared and looked up.
-/

namespace Telemetry

/-- Whether a label comes no later than another, by key and then by value. -/
def labelLe (a b : String × String) : Bool :=
  a.1 < b.1 || (a.1 = b.1 && a.2 ≤ b.2)

/-- Puts a label at its place among sorted labels. -/
def insertLabel (label : String × String) : List (String × String) → List (String × String)
  | [] => [label]
  | l :: ls => if labelLe label l then label :: l :: ls else l :: insertLabel label ls

/-- Labels in the order of key and value. -/
def sortLabels (labels : List (String × String)) : List (String × String) :=
  labels.foldr insertLabel []

theorem insertLabel_perm (label : String × String) :
    ∀ labels : List (String × String), (insertLabel label labels).Perm (label :: labels)
  | [] => .refl _
  | l :: ls => by
    unfold insertLabel
    split
    · exact .refl _
    · exact ((insertLabel_perm label ls).cons l).trans (.swap label l ls)

theorem sortLabels_perm : ∀ labels : List (String × String), (sortLabels labels).Perm labels
  | [] => .refl _
  | l :: ls => (insertLabel_perm l (sortLabels ls)).trans ((sortLabels_perm ls).cons l)

/-- A name with labels in no order. -/
structure Identity where
  /-- The name. -/
  name : String
  /-- The labels, sorted. -/
  labels : List (String × String)
  deriving DecidableEq, Hashable

/-- The identity of a name with labels. -/
def Identity.of (name : String) (labels : List (String × String)) : Identity :=
  ⟨name, sortLabels labels⟩

/-- An identity tells the name, and the labels up to their order. -/
theorem Identity.of_of_eq {name name' : String} {labels labels' : List (String × String)}
    (h : Identity.of name labels = Identity.of name' labels') :
    name = name' ∧ labels.Perm labels' := by
  obtain ⟨same, sorted⟩ := Identity.mk.inj h
  exact ⟨same, (sortLabels_perm labels).symm.trans (sorted ▸ sortLabels_perm labels')⟩

end Telemetry
