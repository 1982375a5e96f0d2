/-!
# Headers

The name of a header is a *token*: one or more ASCII letters, digits and certain marks,
in any case.  Its value holds no control characters but tabs.  The blanks around a
value are no part of it when it is received.
-/

namespace Telemetry.Scrape

/-- Whether a character may stand in a name. -/
def isTokenChar (c : Char) : Bool := c.isAlphanum || "!#$%&'*+-.^_\x60|~".contains c

/-- Whether a text is the name of a header. -/
def isHeaderName (s : String) : Bool := !s.isEmpty && s.toList.all isTokenChar

/-- Whether a text is the value of a header. -/
def isHeaderValue (s : String) : Bool := s.toList.all fun c => c = '\t' || ' ' ≤ c && c ≠ '\x7f'

/-- Whether a character stands around a value and not in it. -/
def isPadding (c : Char) : Bool := c = ' ' || c = '\t'

/-- A value as it is received. -/
def receivedValue (s : String) : String :=
  String.ofList ((s.toList.dropWhile isPadding).reverse.dropWhile isPadding).reverse

end Telemetry.Scrape
