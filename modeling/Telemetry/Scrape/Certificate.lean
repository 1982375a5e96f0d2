/-!
# The form of certificates

A certificate is a sequence of three elements: what is certified, the algorithm of the
signature, and the signature.  An element is a tag, a length and as many bytes.  A
length below 128 is one byte; a greater one is a byte that tells how many bytes it has,
and these.  Only the form is looked at here.
-/

namespace Telemetry.Scrape

/-- The number of some bytes, the most significant first. -/
def natOfBytes (bytes : List UInt8) : Nat := bytes.foldl (fun n b => 256 * n + b.toNat) 0

/-- The length at the front of some bytes, and what follows. -/
def length? : List UInt8 → Option (Nat × List UInt8)
  | [] => none
  | b :: bytes =>
    if b < 0x80 then some (b.toNat, bytes)
    else
      let count := b.toNat - 0x80
      if count = 0 ∨ 4 < count ∨ bytes.length < count then none
      else some (natOfBytes (bytes.take count), bytes.drop count)

/-- The element of a tag at the front of some bytes, and what follows. -/
def element? (tag : UInt8) : List UInt8 → Option (List UInt8 × List UInt8)
  | [] => none
  | t :: bytes =>
    if t ≠ tag then none
    else
      match length? bytes with
      | none => none
      | some (n, bytes) => if bytes.length < n then none else some (bytes.take n, bytes.drop n)

/-- The tag of a sequence. -/
def sequenceTag : UInt8 := 0x30

/-- Whether some bytes are elements of the given tags, one after the other, and then anything. -/
def startsWithElements : List UInt8 → List UInt8 → Bool
  | [], _ => true
  | tag :: tags, bytes =>
    match element? tag bytes with
    | none => false
    | some (_, rest) => startsWithElements tags rest

/-- Whether some bytes are one sequence, whose content passes a test. -/
def isSequence (test : List UInt8 → Bool) (bytes : List UInt8) : Bool :=
  match element? sequenceTag bytes with
  | some (content, []) => test content
  | _ => false

/-- Whether some bytes are the form of what is certified: a version, which may be missing, a
number, an algorithm, an issuer, a time, a subject and a key. -/
def isCertified (bytes : List UInt8) : Bool :=
  let rest := match element? 0xa0 bytes with
    | some (_, rest) => rest
    | none => bytes
  startsWithElements [0x02, 0x30, 0x30, 0x30, 0x30, 0x30] rest

/-- Whether some bytes have the form of a certificate. -/
def isCertificate (bytes : List UInt8) : Bool :=
  isSequence (fun content =>
    match element? sequenceTag content with
    | none => false
    | some (certified, rest) => isCertified certified && startsWithElements [0x30, 0x03] rest) bytes

/-- Whether some bytes have the form of a key. -/
def isPrivateKey (bytes : List UInt8) : Bool := isSequence (startsWithElements [0x02]) bytes

end Telemetry.Scrape
