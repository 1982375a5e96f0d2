import Telemetry.Text.Blank
import Telemetry.Text.Percent
import Telemetry.Text.Utf8

/-!
# Form fields

A query is a list of fields with ampersands between them, and a field is a name and a
value with an equals sign between them.  A field without the sign has an empty value,
and an empty field counts for nothing.  A plus sign stands for a space, other
characters are written with percent signs, and bytes that are not valid UTF-8 stand
for U+FFFD.
-/

namespace Telemetry.Http

/-- The text that the bytes of a name or a value stand for. -/
def formText (bytes : List UInt8) : String :=
  String.ofList (Text.utf8Lenient (Text.percentDecode (bytes.map fun b =>
    if b = 0x2b then 0x20 else b)))

/-- The field written by some bytes. -/
def formField (bytes : List UInt8) : String × String :=
  (formText (bytes.takeWhile (· ≠ 0x3d)), formText ((bytes.dropWhile (· ≠ 0x3d)).drop 1))

/-- The fields of a query, in order. -/
def formFields (query : List Char) : List (String × String) :=
  let pieces := Text.splitAt (· = (0x26 : UInt8)) (String.ofList query).toUTF8.toList
  (pieces.filter (!·.isEmpty)).map formField

end Telemetry.Http
