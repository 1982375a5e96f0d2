import Telemetry.Text.Utf16
import Telemetry.Text.Utf8

/-!
# Byte order marks

Bytes may start with a byte order mark, which tells their encoding and is no part of
the text.  Without one they are taken for UTF-8.  Whatever is not valid stands for
U+FFFD.
-/

namespace Telemetry.Text

/-- The text of any bytes. -/
def ofBytes : List UInt8 → List Char
  | 0xef :: 0xbb :: 0xbf :: bytes => utf8Lenient bytes
  | 0xff :: 0xfe :: bytes => utf16Lenient false bytes
  | 0xfe :: 0xff :: bytes => utf16Lenient true bytes
  | bytes => utf8Lenient bytes

end Telemetry.Text
