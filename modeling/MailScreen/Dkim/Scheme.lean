import MailScreen.Crypto.Ed25519
import MailScreen.Crypto.Rsa
import MailScreen.Dkim.Outcome
import MailScreen.Text.Base64

/-!
# Hash and keys

Model of `PublicKey` and `SignerKey` and of how keys are read, `parse_rsa_public_key`,
`parse_ed25519_public_key` (RFC 8463) and `parse_rsa_private_key`.

The rules for signatures do not depend on how hashes are computed and keys are used, so they take
both from a scheme.

* `Scheme` is a hash function and a way to read published keys: a key comes down to the test whether
  a signature of some data is valid.
* `SigningKey` is the other half: the published form of a key and the signatures that it makes.
* `Scheme.standard` and `SigningKey.ofPem?` are the real ones. An Ed25519 signature is made over the
  SHA-256 hash of the data.
-/

namespace MailScreen.Dkim

open MailScreen.Text MailScreen.Crypto

/-- Whether a signature of some data is valid. -/
abbrev Acceptance := List UInt8 → List UInt8 → Bool

/-- A hash function, and a way to read published keys. -/
structure Scheme where
  hash : List UInt8 → List UInt8
  /-- Reads the published form of a key. -/
  readKey : Algorithm → String → Option Acceptance

/-- A key that can sign. -/
structure SigningKey where
  algorithm : Algorithm
  /-- The key that others need to check its signatures. -/
  publicBytes : List UInt8
  sign : List UInt8 → List UInt8

/-- Reads a published RSA key. -/
def rsaKey? (published : String) : Option Rsa.PublicKey :=
  (Base64.decode? published.toList).bind Rsa.PublicKey.ofDer?

/-- Reads a published Ed25519 key. -/
def ed25519Key? (published : String) : Option Ed25519.PublicKey :=
  (Base64.decode? published.toList).bind Ed25519.PublicKey.ofBytes?

/-- SHA-256 with RSA and Ed25519 keys. -/
def Scheme.standard : Scheme where
  hash := sha256
  readKey
    | .rsa, published => (rsaKey? published).map fun k => k.verify
    | .ed25519, published => (ed25519Key? published).map fun k data => k.verify (sha256 data)

namespace SigningKey

/-- The published form of the key. -/
def published (k : SigningKey) : String :=
  Base64.encode k.publicBytes

/-- An RSA key. -/
def ofRsa (k : Rsa.PrivateKey) : SigningKey where
  algorithm := .rsa
  publicBytes := k.publicKey.toDer
  sign := k.sign

/-- An Ed25519 key. -/
def ofEd25519 (k : Ed25519.PrivateKey) : SigningKey where
  algorithm := .ed25519
  publicBytes := k.publicBytes
  sign data := k.sign (sha256 data)

/-- Reads the file of a key for an algorithm. -/
def ofPem? (algorithm : Algorithm) (text : String) : Option SigningKey :=
  match algorithm with
  | .rsa => (Rsa.PrivateKey.ofPem? text).map ofRsa
  | .ed25519 => (Ed25519.PrivateKey.ofPem? text).map ofEd25519

theorem algorithm_of_ofPem? {algorithm : Algorithm} {text : String} {k : SigningKey}
    (h : ofPem? algorithm text = some k) : algorithm = k.algorithm := by
  cases algorithm <;> obtain ⟨_, -, rfl⟩ := Option.map_eq_some_iff.1 h <;> rfl

/-- The text that publishes the key. -/
def record (k : SigningKey) : String :=
  "v=DKIM1; k=" ++ k.algorithm.keyType ++ "; p=" ++ k.published

end SigningKey

end MailScreen.Dkim
