import MailScreen.Dkim.Canonical
import MailScreen.Dkim.Scheme
import MailScreen.Error
import MailScreen.Mail.Message

/-!
# Signing messages

Model of `DkimSigningConfig` and `DkimSigner` (`new`, `sign`, `sign_message`, `public_key_record`).

* `Signer` is a key and what its signatures say; `Signer.make` reads the key and refuses a signer
  without a domain or a selector.
* `Signer.sign` gives the value of the field `DKIM-Signature` for a message.
* `Signer.record` is the text to publish at `Signer.recordName`.
-/

namespace MailScreen.Dkim

open MailScreen.Text

/-- What a signature says besides the key. -/
structure SigningOptions where
  domain : String
  selector : String
  algorithm : Algorithm
  headerForm : Form
  bodyForm : Form
  /-- The fields to sign, as far as a message has them. -/
  names : List String
  deriving Repr, DecidableEq

/-- The fields that are signed if nothing else is asked for. -/
def defaultNames : List String :=
  ["from", "to", "subject", "date", "message-id", "mime-version", "content-type"]

/-- Signatures of a domain with RSA and relaxed forms. -/
def SigningOptions.ofDomain (domain selector : String) : SigningOptions :=
  ⟨domain, selector, .rsa, .relaxed, .relaxed, defaultNames⟩

/-- A key and what its signatures say. -/
structure Signer where
  options : SigningOptions
  key : SigningKey
  /-- The signatures name the algorithm of the key. -/
  fits : options.algorithm = key.algorithm

namespace Signer

/-- A signer with a key; the key decides the algorithm. -/
def ofKey (options : SigningOptions) (key : SigningKey) : Signer :=
  ⟨{ options with algorithm := key.algorithm }, key, rfl⟩

/-- What is said of a key file that cannot be read. -/
def keyFault : Algorithm → Error
  | .rsa => ⟨.key, "Failed to parse RSA private key"⟩
  | .ed25519 => ⟨.key, "Failed to parse Ed25519 private key"⟩

/-- A signer with the key of a file. -/
def make (options : SigningOptions) (pem : String) : Except Error Signer :=
  if options.domain = "" ∨ options.selector = "" then
    .error ⟨.configuration, "DKIM signing requires a domain and selector"⟩
  else
    match h : SigningKey.ofPem? options.algorithm pem with
    | some key => .ok ⟨options, key, SigningKey.algorithm_of_ofPem? h⟩
    | none => .error (keyFault options.algorithm)

/-- The text to publish. -/
def record (s : Signer) : String :=
  s.key.record

/-- The name at which it is published. -/
def recordName (s : Signer) : String :=
  s.options.selector ++ "._domainkey." ++ s.options.domain

/-- The names of the fields that a signature of these fields covers. -/
def coveredNames (s : Signer) (h : Mail.Headers) : List String :=
  (s.options.names.filter h.contains).map lowerAsciiString

/-- The value of the field without the signature itself, made at a time in seconds. -/
def unsignedValue (s : Signer) (hash : List UInt8 → List UInt8) (now : Int) (m : Mail.Message) :
    String :=
  let o := s.options
  "v=1; a=" ++ o.algorithm.name ++ "; c=" ++ o.headerForm.name ++ "/" ++ o.bodyForm.name ++
    "; d=" ++ o.domain ++ "; s=" ++ o.selector ++ "; t=" ++ toString now ++ "; h=" ++
    ":".intercalate (s.coveredNames m.headers) ++ "; bh=" ++
    Base64.encode (hash (body o.bodyForm m.body)) ++ "; b="

/-- The value of the field `DKIM-Signature` for a message, made at a time in seconds. -/
def sign (s : Signer) (hash : List UInt8 → List UInt8) (now : Int) (m : Mail.Message) : String :=
  let value := s.unsignedValue hash now m
  value ++ Base64.encode (s.key.sign
    (headerBytes s.options.headerForm m.headers (s.coveredNames m.headers) value))

end Signer

end MailScreen.Dkim
