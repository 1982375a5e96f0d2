import Telemetry.Family

/-!
# Merging families

Families of one name become one family with the metrics of all, in order.  Its
kind is that of the first of them, and a later family of another kind is left out,
since a name is exposed under one kind.  Its help is the first that is given by a
family that is kept.  The result is sorted by name.
-/

namespace Telemetry

/-- Takes the metrics of another family in, if it has the same kind. -/
def Family.absorb (family other : Family) : Family :=
  if family.kind = other.kind then
    { family with help := family.help <|> other.help, metrics := family.metrics ++ other.metrics }
  else family

/-- Adds a family to those merged so far. -/
def Family.mergeInto (merged : Dict Family) (family : Family) : Dict Family :=
  match merged.get? family.name with
  | none => merged.insert family.name family
  | some existing => merged.insert family.name (existing.absorb family)

/-- One family for each name, sorted by name. -/
def Family.merge (families : List Family) : List Family :=
  (families.foldl Family.mergeInto Dict.empty).values

end Telemetry
