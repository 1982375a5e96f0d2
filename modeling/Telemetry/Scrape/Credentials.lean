import Telemetry.Files
import Telemetry.Scrape.Certificate
import Telemetry.Scrape.Pem
import Telemetry.Settings

/-!
# Credentials

Targets may be shown a certificate with its key, and be checked against authorities.
The certificate and the key are used if both are set.  First the file of the
certificate is read, then that of the key, which together must hold a certificate and
a key and nothing else that is known, and then the file of the authorities.  What the
blocks hold is looked at when they are put to use.
-/

namespace Telemetry.Scrape

/-- Why scraping cannot be set up. -/
inductive SetupError where
  /-- A file cannot be read. -/
  | unreadable (path : String) (error : FileError)
  /-- There is no certificate or no key in their files. -/
  | noIdentity
  /-- A target is to be sent a header that cannot be sent. -/
  | badHeader (sourceId name : String)
  /-- What a block holds is not what the block says. -/
  | badMaterial
  deriving DecidableEq

/-- The error in words. -/
def SetupError.message : SetupError → String
  | .unreadable path error => "failed to read " ++ path ++ ": " ++ error.message
  | .noIdentity => "invalid tls material"
  | .badHeader sourceId name => "invalid header for target " ++ sourceId ++ ": " ++ name
  | .badMaterial => "failed to build http client"

/-- Certificates with a key. -/
structure Credential where
  /-- The certificates. -/
  certificates : List (List UInt8)
  /-- The key of the first. -/
  key : List UInt8
  deriving DecidableEq

/-- The bytes of the blocks of a kind. -/
def bytesOf (kind : BlockKind) (blocks : List Block) : List (List UInt8) :=
  (blocks.filter (·.kind = kind)).map (·.bytes)

/-- The certificates with the last key of some bytes. -/
def Credential.of? (bytes : List UInt8) : Option Credential := do
  let blocks ← blocks? bytes
  if blocks.any (·.kind = .other) then none
  else
    let certificates := bytesOf .certificate blocks
    if certificates.isEmpty then none
    else return ⟨certificates, ← (bytesOf .privateKey blocks).getLast?⟩

/-- What targets are shown, and what they are checked against. -/
structure Credentials where
  /-- The certificate that is shown. -/
  identity : Option Credential := none
  /-- The file of the authorities. -/
  authorities : Option (List UInt8) := none
  deriving DecidableEq

namespace Credentials

/-- The bytes of a file. -/
def readFile (files : FileTree) (path : String) : Except SetupError (List UInt8) :=
  match files.read path with
  | .ok bytes => .ok bytes
  | .error e => .error (.unreadable path e)

/-- The certificate in a file with the key in another. -/
def loadIdentity (files : FileTree) (certPath keyPath : String) : Except SetupError Credential := do
  let cert ← readFile files certPath
  let key ← readFile files keyPath
  match Credential.of? (cert ++ '\n'.toUInt8 :: key) with
  | some credential => return credential
  | none => throw .noIdentity

/-- Loads what the settings name. -/
def load (files : FileTree) (settings : ScrapeSettings) : Except SetupError Credentials := do
  let identity ← match settings.certPath, settings.keyPath with
    | some cert, some key => some <$> loadIdentity files cert key
    | _, _ => pure none
  let authorities ← settings.caPath.mapM (readFile files)
  return ⟨identity, authorities⟩

/-- Whether all certificates of some authorities have the form of one. -/
def areAuthorities (bytes : List UInt8) : Bool :=
  match blocks? bytes with
  | none => false
  | some blocks => (bytesOf .certificate blocks).all isCertificate

/-- Whether a certificate and its key have the form of such. -/
def isCredential (c : Credential) : Bool :=
  c.certificates.head?.any isCertificate && isPrivateKey c.key

/-- Whether the credentials can be put to use. -/
def areUsable (c : Credentials) : Bool :=
  c.identity.all isCredential && c.authorities.all areAuthorities

end Credentials

end Telemetry.Scrape
