import Telemetry.Json.Token

/-!
# Reading values

A value is read from its tokens one at a time.  What has been opened and not yet
closed is kept in a stack of *frames*, so a value may be nested as deeply as its
text is long.  A reading is *complete* when a value has been read and no frame is
open, and a text has the value of the complete reading of its tokens.
-/

namespace Telemetry.Json

/-- What is open around the value being read. -/
inductive Frame where
  /-- An array with the items read so far, the latest first. -/
  | array (items : List Json)
  /-- An object with the fields read so far, the latest first, and the key of the value. -/
  | object (fields : List (Option String × Json)) (key : Option String)

/-- What may come next. -/
inductive State where
  /-- A value. -/
  | value (stack : List Frame)
  /-- The first item of an array, or its end. -/
  | firstItem (stack : List Frame)
  /-- The first key of an object, or its end. -/
  | firstKey (stack : List Frame)
  /-- The next key of an object. -/
  | nextKey (fields : List (Option String × Json)) (stack : List Frame)
  /-- The colon after a key. -/
  | colon (fields : List (Option String × Json)) (key : Option String) (stack : List Frame)
  /-- What goes on after a value. -/
  | after (value : Json) (stack : List Frame)

namespace State

/-- Starts a value. -/
def start (stack : List Frame) : Token → Option State
  | .null => some (.after .null stack)
  | .bool b => some (.after (.bool b) stack)
  | .number n => some (.after (.number n) stack)
  | .text s => some (.after (.text s) stack)
  | .openArray => some (.firstItem stack)
  | .openObject => some (.firstKey stack)
  | _ => none

/-- Takes a token. -/
def step : State → Token → Option State
  | .value stack, token => start stack token
  | .firstItem stack, .closeArray => some (.after (.array []) stack)
  | .firstItem stack, token => start (.array [] :: stack) token
  | .firstKey stack, .closeObject => some (.after (.object []) stack)
  | .firstKey stack, .text key => some (.colon [] key stack)
  | .nextKey fields stack, .text key => some (.colon fields key stack)
  | .colon fields key stack, .colon => some (.value (.object fields key :: stack))
  | .after v (.array items :: stack), .comma => some (.value (.array (v :: items) :: stack))
  | .after v (.array items :: stack), .closeArray =>
    some (.after (.array (v :: items).reverse) stack)
  | .after v (.object fields key :: stack), .comma => some (.nextKey ((key, v) :: fields) stack)
  | .after v (.object fields key :: stack), .closeObject =>
    some (.after (.object ((key, v) :: fields).reverse) stack)
  | _, _ => none

/-- The value of a complete reading. -/
def result? : State → Option Json
  | .after v [] => some v
  | _ => none

end State

/-- The value of some tokens. -/
def ofTokens? (tokens : List Token) : Option Json :=
  (tokens.foldlM State.step (.value [])).bind State.result?

/-- The value of a text. -/
def read? (s : List Char) : Option Json := (Token.all? s).bind ofTokens?

end Telemetry.Json
