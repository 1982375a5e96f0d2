/-!
# JSON values

A value keeps what its text says and no more is decided here: a number is the
literal that was written, an object keeps all its fields in order, repeated ones
too, and a text is `none` if one of its escapes denotes half of a character.
-/

namespace Telemetry

/-- A number as it is written. -/
structure Numeral where
  /-- Whether a minus sign stands first. -/
  negative : Bool
  /-- The digits before the point. -/
  whole : List Char
  /-- The digits after the point, none if there is no point. -/
  fraction : List Char
  /-- The exponent, if there is one. -/
  exponent : Option Int
  deriving DecidableEq

/-- A value. -/
inductive Json where
  | null
  | bool (value : Bool)
  | number (numeral : Numeral)
  | text (value : Option String)
  | array (items : List Json)
  | object (fields : List (Option String × Json))

end Telemetry
