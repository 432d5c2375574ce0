import MailScreen.Crypto.Der
import MailScreen.Crypto.Pem
import MailScreen.Crypto.PowMod

/-!
# RSA signatures

Signatures of the scheme PKCS #1 v1.5 over SHA-256.

* `PublicKey.ofDer?` and `PrivateKey.ofPem?` read keys and refuse those that are out of range.
* `encoded` is the block that is signed, `PublicKey.verify` and `PrivateKey.sign` do the rest.
-/

namespace MailScreen.Crypto.Rsa

/-- A modulus and an exponent. -/
structure PublicKey where
  modulus : Nat
  exponent : Nat
  deriving Repr, DecidableEq

namespace PublicKey

/-- Whether a key is in range: an odd modulus of at most 4096 bits, and an odd exponent from 2 to
less than 2^33 that is below the modulus. -/
def isUsable (k : PublicKey) : Bool :=
  k.modulus < Nat.pow 2 4096 && k.modulus % 2 == 1 && k.exponent % 2 == 1 && 2 ≤ k.exponent &&
    k.exponent < Nat.pow 2 33 && k.exponent < k.modulus

/-- The number of bytes of the modulus. -/
def size (k : PublicKey) : Nat :=
  (Der.bytesOf k.modulus).length

/-- The two numbers of a key. -/
def ofNumbers? (bytes : List UInt8) : Option PublicKey := do
  let contents ← Der.whole? Der.sequenceTag bytes
  let (n, rest) ← Der.natural? contents
  let (e, rest) ← Der.natural? rest
  let k : PublicKey := ⟨n, e⟩
  if rest.isEmpty ∧ k.isUsable then some k else none

/-- Reads a key, in a container or bare. -/
def ofDer? (bytes : List UInt8) : Option PublicKey :=
  match (Der.publicKey? Der.rsaAlgorithm bytes).bind ofNumbers? with
  | some k => some k
  | none => ofNumbers? bytes

/-- Writes a key in a container. -/
def toDer (k : PublicKey) : List UInt8 :=
  Der.publicKey Der.rsaAlgorithm
    (Der.element Der.sequenceTag (Der.natural k.modulus ++ Der.natural k.exponent))

end PublicKey

/-- What stands before a SHA-256 hash to say that it is one. -/
def hashHeader : List UInt8 :=
  [0x30, 0x31, 0x30, 0x0D, 0x06, 0x09, 0x60, 0x86, 0x48, 0x01, 0x65, 0x03, 0x04, 0x02, 0x01, 0x05,
    0x00, 0x04, 0x20]

/-- The block of `size` bytes that is signed for a hash; too small a block cannot hold it. -/
def encoded (size : Nat) (hash : List UInt8) : Option (List UInt8) :=
  let tail := hashHeader ++ hash
  if size < tail.length + 11 then none
  else some ([0x00, 0x01] ++ List.replicate (size - tail.length - 3) 0xFF ++ 0x00 :: tail)

/-- Whether a signature of a message is valid. -/
def PublicKey.verify (k : PublicKey) (message signature : List UInt8) : Bool :=
  let s := ofBigEndian signature
  signature.length == k.size && s < k.modulus &&
    encoded k.size (sha256 message) ==
      some (bigEndian k.size (powMod s k.exponent k.modulus))

/-- The numbers of a private key. -/
structure PrivateKey where
  publicKey : PublicKey
  secret : Nat
  prime1 : Nat
  prime2 : Nat
  deriving Repr, DecidableEq

namespace PrivateKey

/-- Whether the numbers belong together. -/
def isUsable (k : PrivateKey) : Bool :=
  let product := k.publicKey.exponent * k.secret
  k.publicKey.isUsable && 1 < k.prime1 && 1 < k.prime2 &&
    k.prime1 * k.prime2 == k.publicKey.modulus &&
    product % (k.prime1 - 1) == 1 && product % (k.prime2 - 1) == 1

/-- Takes `count` numbers off the front. -/
def naturals? : Nat → List UInt8 → Option (List Nat × List UInt8)
  | 0, bytes => some ([], bytes)
  | count + 1, bytes => do
    let (n, rest) ← Der.natural? bytes
    let (ns, rest) ← naturals? count rest
    return (n :: ns, rest)

/-- The numbers of a key with two primes. -/
def ofNumbers? (bytes : List UInt8) : Option PrivateKey := do
  let contents ← Der.whole? Der.sequenceTag bytes
  match ← naturals? 9 contents with
  | (version :: n :: e :: d :: p :: q :: _, rest) =>
    let k : PrivateKey := ⟨⟨n, e⟩, d, p, q⟩
    if version = 0 ∧ rest.isEmpty ∧ k.isUsable then some k else none
  | _ => none

/-- The key in a container for RSA keys. -/
def ofContainer? (bytes : List UInt8) : Option PrivateKey := do
  let container ← Der.privateKey? bytes
  if container.algorithm = Der.rsaAlgorithm then ofNumbers? container.key else none

/-- Reads a key file, with a container or without. -/
def ofPem? (text : String) : Option PrivateKey :=
  match (Pem.decode? "PRIVATE KEY" text).bind ofContainer? with
  | some k => some k
  | none => (Pem.decode? "RSA PRIVATE KEY" text).bind ofNumbers?

/-- The signature of a message; empty if the modulus is too small for one. -/
def sign (k : PrivateKey) (message : List UInt8) : List UInt8 :=
  match encoded k.publicKey.size (sha256 message) with
  | some block =>
    bigEndian k.publicKey.size (powMod (ofBigEndian block) k.secret k.publicKey.modulus)
  | none => []

end PrivateKey

end MailScreen.Crypto.Rsa
