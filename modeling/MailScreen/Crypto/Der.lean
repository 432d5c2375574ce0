import MailScreen.Crypto.Sha2

/-!
# DER

Keys are written in the distinguished encoding of ASN.1: each element is a tag, a length and its
contents, and each value has one encoding only.

* `element?` takes an element of a tag off the front of the bytes, `whole?` reads bytes that are one
  element.
* `natural?` reads a non-negative integer, `bits?` a bit string of whole bytes.
* `element` and `natural` write.
-/

namespace MailScreen.Crypto.Der

/-! ## Elements -/

/-- The tag of an integer. -/
def integerTag : UInt8 := 0x02

/-- The tag of a bit string. -/
def bitStringTag : UInt8 := 0x03

/-- The tag of a byte string. -/
def octetStringTag : UInt8 := 0x04

/-- The tag of the empty element. -/
def nullTag : UInt8 := 0x05

/-- The tag of an object. -/
def objectTag : UInt8 := 0x06

/-- The tag of a sequence. -/
def sequenceTag : UInt8 := 0x30

/-- A length of `count` bytes, which must not fit into fewer. -/
def longLength? (count : Nat) (bytes : List UInt8) : Option (Nat × List UInt8) :=
  let n := ofBigEndian (bytes.take count)
  if bytes.length < count then none
  else if n < 0x80 ∨ n < Nat.pow 256 (count - 1) then none
  else some (n, bytes.drop count)

/-- Takes a length off the front. -/
def length? (bytes : List UInt8) : Option (Nat × List UInt8) :=
  match bytes with
  | [] => none
  | b :: rest =>
    if b < 0x80 then some (b.toNat, rest)
    else if 0x81 ≤ b && b ≤ 0x84 then longLength? (b.toNat - 0x80) rest
    else none

/-- Takes the contents of that length off the front. -/
def contents? (bytes : List UInt8) : Option (List UInt8 × List UInt8) := do
  let (n, rest) ← length? bytes
  if rest.length < n then none else some (rest.take n, rest.drop n)

/-- Takes an element of a tag off the front: its contents, and the rest. -/
def element? (tag : UInt8) (bytes : List UInt8) : Option (List UInt8 × List UInt8) :=
  match bytes with
  | [] => none
  | t :: rest => if t = tag then contents? rest else none

/-- The contents of bytes that are one element of a tag. -/
def whole? (tag : UInt8) (bytes : List UInt8) : Option (List UInt8) :=
  match element? tag bytes with
  | some (contents, []) => some contents
  | _ => none

/-- The value of the contents of a non-negative integer: no leading zero byte that is not needed to
keep the sign bit clear. -/
def naturalValue? (contents : List UInt8) : Option Nat :=
  match contents with
  | [] => none
  | [b] => if b < 0x80 then some b.toNat else none
  | b :: c :: _ =>
    if 0x80 ≤ b || (b == 0 && c < 0x80) then none else some (ofBigEndian contents)

/-- Takes a non-negative integer off the front. -/
def natural? (bytes : List UInt8) : Option (Nat × List UInt8) := do
  let (contents, rest) ← element? integerTag bytes
  return (← naturalValue? contents, rest)

/-- The bytes of the contents of a bit string without unused bits. -/
def bitBytes? (contents : List UInt8) : Option (List UInt8) :=
  match contents with
  | 0 :: bytes => some bytes
  | _ => none

/-- Takes a bit string of whole bytes off the front. -/
def bits? (bytes : List UInt8) : Option (List UInt8 × List UInt8) := do
  let (contents, rest) ← element? bitStringTag bytes
  return (← bitBytes? contents, rest)

/-! ## Algorithms of keys -/

/-- What kind of key follows. -/
structure Algorithm where
  object : List UInt8
  /-- The tag and contents of the parameters, if there are any. -/
  parameters : Option (UInt8 × List UInt8)
  deriving Repr, DecidableEq

/-- The contents of an element of any tag that is all the bytes there are. -/
def anyWhole? (bytes : List UInt8) : Option (UInt8 × List UInt8) :=
  match bytes with
  | [] => none
  | tag :: rest =>
    match contents? rest with
    | some (contents, []) => some (tag, contents)
    | _ => none

/-- Takes the kind of a key off the front. -/
def algorithm? (bytes : List UInt8) : Option (Algorithm × List UInt8) := do
  let (contents, rest) ← element? sequenceTag bytes
  let (object, parameters) ← element? objectTag contents
  if parameters.isEmpty then return (⟨object, none⟩, rest)
  else return (⟨object, some (← anyWhole? parameters)⟩, rest)

/-- RSA keys: the object and empty parameters. -/
def rsaAlgorithm : Algorithm :=
  ⟨[0x2A, 0x86, 0x48, 0x86, 0xF7, 0x0D, 0x01, 0x01, 0x01], some (nullTag, [])⟩

/-- Ed25519 keys: the object without parameters. -/
def ed25519Algorithm : Algorithm :=
  ⟨[0x2B, 0x65, 0x70], none⟩

/-! ## Containers of keys -/

/-- The key in a container for public keys, if it is of this kind. -/
def publicKey? (algorithm : Algorithm) (bytes : List UInt8) : Option (List UInt8) := do
  let contents ← whole? sequenceTag bytes
  let (found, rest) ← algorithm? contents
  let (key, rest) ← bits? rest
  if found = algorithm ∧ rest.isEmpty then some key else none

/-- Whether a tag is specific to its context. -/
def isContextTag (tag : UInt8) : Bool :=
  0x80 ≤ tag && tag < 0xC0

/-- The elements specific to their context that follow a private key. -/
def extensions? : Nat → List UInt8 → Option (List (UInt8 × List UInt8))
  | _, [] => some []
  | 0, _ => none
  | fuel + 1, tag :: bytes =>
    if isContextTag tag then do
      let (contents, rest) ← contents? bytes
      return (tag, contents) :: (← extensions? fuel rest)
    else none

/-- A private key and the public key that may go with it. -/
structure PrivateKey where
  algorithm : Algorithm
  key : List UInt8
  publicKey : Option (List UInt8)
  deriving Repr, DecidableEq

/-- Reads a container for private keys. Its version says whether a public key goes with it. -/
def privateKey? (bytes : List UInt8) : Option PrivateKey := do
  let contents ← whole? sequenceTag bytes
  let (version, rest) ← natural? contents
  let (algorithm, rest) ← algorithm? rest
  let (key, rest) ← element? octetStringTag rest
  let extensions ← extensions? rest.length rest
  match version, extensions.lookup 0x81 with
  | 0, none => some ⟨algorithm, key, none⟩
  | 1, some bits => some ⟨algorithm, key, some (← bitBytes? bits)⟩
  | _, _ => none

/-! ## Writing -/

/-- The bytes of a number without leading zero bytes. -/
def bytesOf (n : Nat) : List UInt8 :=
  bigEndian ((Nat.toDigits 16 n).length / 2 + 1) n |>.dropWhile (· == 0)

/-- A length. -/
def lengthBytes (n : Nat) : List UInt8 :=
  if n < 0x80 then [UInt8.ofNat n]
  else
    let bytes := bytesOf n
    UInt8.ofNat (0x80 + bytes.length) :: bytes

/-- An element. -/
def element (tag : UInt8) (contents : List UInt8) : List UInt8 :=
  tag :: lengthBytes contents.length ++ contents

/-- A non-negative integer. -/
def natural (n : Nat) : List UInt8 :=
  let bytes := bytesOf n
  element integerTag (if (bytes.headD 0x80) < 0x80 then bytes else 0 :: bytes)

/-- A kind of key. -/
def algorithm (a : Algorithm) : List UInt8 :=
  element sequenceTag (element objectTag a.object ++
    match a.parameters with
    | some (tag, contents) => element tag contents
    | none => [])

/-- A container for a public key. -/
def publicKey (a : Algorithm) (key : List UInt8) : List UInt8 :=
  element sequenceTag (algorithm a ++ element bitStringTag (0 :: key))

end MailScreen.Crypto.Der
