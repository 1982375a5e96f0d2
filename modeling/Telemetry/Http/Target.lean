import Telemetry.Text.Blank
import Telemetry.Text.Percent

/-!
# Request targets

What a request asks for is the path and the query of an address, without its fragment.
A path is a list of segments with slashes between them, and backslashes count as such.
A segment of one point is left out, and one of two points takes the segment before it
away.  Characters that may not be sent are written with percent signs.
-/

namespace Telemetry.Http

/-- Whether a character of a path stands for itself. -/
def isPathChar (c : Char) : Bool :=
  ' ' < c && c < '\x7f' && !"\"#<>?\x60\x7b\x7d".contains c

/-- Whether a character of a query stands for itself. -/
def isQueryChar (c : Char) : Bool := ' ' < c && c < '\x7f' && !"\"#<>'".contains c

/-- The segment with its points written as such. -/
def unescapedPoints (segment : List Char) : String :=
  (String.ofList (segment.map Char.toLower)).replace "%2e" "."

/-- The segments that are left of some segments, given those before them, the last first. -/
def resolveSegments (before : List (List Char)) : List (List Char) → List (List Char)
  | [] => before.reverse
  | segment :: rest =>
    let points := unescapedPoints segment
    if points = ".." then
      if rest.isEmpty then ([] :: before.drop 1).reverse else resolveSegments (before.drop 1) rest
    else if points = "." then
      if rest.isEmpty then ([] :: before).reverse else resolveSegments before rest
    else resolveSegments (segment :: before) rest

/-- The path of some segments. -/
def pathOf (segments : List (List Char)) : List Char := segments.flatMap ('/' :: ·)

/-- The path and the query asked for at a path after its first slash. -/
def requestTarget (s : List Char) : List Char :=
  let s := (s.reverse.dropWhile (· ≤ ' ')).reverse.filter fun c => c ≠ '\t' ∧ c ≠ '\n' ∧ c ≠ '\r'
  let s := s.takeWhile (· ≠ '#')
  let path := s.takeWhile (· ≠ '?')
  let query := s.dropWhile (· ≠ '?')
  let segments := resolveSegments [] (Text.splitAt (fun c => c = '/' || c = '\\') path)
  pathOf (segments.map (Text.percentEncode isPathChar))
    ++ query.take 1 ++ Text.percentEncode isQueryChar (query.drop 1)

end Telemetry.Http
