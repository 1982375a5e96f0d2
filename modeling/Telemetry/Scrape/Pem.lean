import Telemetry.Text.Base64
import Telemetry.Text.Blank

/-!
# Armoured blocks

A file of keys and certificates holds blocks.  A block lies between a line that begins
it and a line that ends it, both of which name what it is, and holds bytes in base 64.
Other lines count for nothing.  A file is broken if a line that should begin a block
does not close its name, if the end of a block of a known kind is missing, or if what
such a block holds is not base 64.
-/

namespace Telemetry.Scrape

/-- The kinds of blocks that are known. -/
inductive BlockKind where
  /-- A certificate. -/
  | certificate
  /-- The key of a certificate. -/
  | privateKey
  /-- Anything else that is known. -/
  | other
  deriving DecidableEq

/-- The kind of a block by its name, if it is known. -/
def BlockKind.ofName? (name : String) : Option BlockKind :=
  if name = "CERTIFICATE" then some .certificate
  else if ["PRIVATE KEY", "RSA PRIVATE KEY", "EC PRIVATE KEY"].contains name then some .privateKey
  else if ["PUBLIC KEY", "X509 CRL", "CERTIFICATE REQUEST", "ECHCONFIG"].contains name then
    some .other
  else none

/-- A block. -/
structure Block where
  /-- What it is. -/
  kind : BlockKind
  /-- The bytes it holds. -/
  bytes : List UInt8
  deriving DecidableEq

/-- What a line does. -/
inductive ArmourLine where
  /-- It begins a block of a name. -/
  | opening (name : List Char)
  /-- It should begin a block. -/
  | broken
  /-- Anything else. -/
  | text (line : List Char)

/-- What a line that begins a block starts with. -/
def openingMark : List Char := "-----BEGIN ".toList

/-- What a line that ends a block starts with. -/
def closingMark : List Char := "-----END ".toList

/-- What comes after a name. -/
def dashes : List Char := "-----".toList

/-- Reads a line. -/
def ArmourLine.of (line : List Char) : ArmourLine :=
  if openingMark.isPrefixOf line then
    let reversed := line.reverse.dropWhile (· = ' ')
    if dashes.isPrefixOf reversed then
      .opening ((reversed.drop dashes.length).reverse.drop openingMark.length)
    else .broken
  else .text line

/-- What has been read: the blocks so far, the newest first, and the name and the text of the one
that is open. -/
structure Armour where
  /-- The blocks. -/
  blocks : List Block := []
  /-- The open block. -/
  pending : Option (List Char × List Char) := none

/-- Reads one more line. -/
def Armour.add? (a : Armour) (line : List Char) : Option Armour :=
  match ArmourLine.of line, a.pending with
  | .broken, _ => none
  | .opening name, _ => some { a with pending := some (name, []) }
  | .text _, none => some a
  | .text line, some (name, body) =>
    if (closingMark ++ name ++ dashes).isPrefixOf line then
      match BlockKind.ofName? (String.ofList name) with
      | none => some { a with pending := none }
      | some kind =>
        (Text.bytesOfBase64? body).map fun bytes => ⟨⟨kind, bytes⟩ :: a.blocks, none⟩
    else some { a with pending := some (name, body ++ line) }

/-- The characters that bytes stand for, one each. -/
def charsOfBytes (bytes : List UInt8) : List Char := bytes.map fun b => Char.ofNat b.toNat

/-- The blocks of a file, unless it is broken. -/
def blocks? (bytes : List UInt8) : Option (List Block) := do
  let lines := Text.splitAt (fun c => c = '\n' || c = '\r') (charsOfBytes bytes)
  let a ← lines.foldlM Armour.add? {}
  if a.pending.isSome then none else return a.blocks.reverse

end Telemetry.Scrape
