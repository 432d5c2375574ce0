import MailScreen.Dkim.Canonical
import MailScreen.Dkim.Scheme
import MailScreen.Dkim.Tags
import MailScreen.Dns.Context
import MailScreen.Mail.Message

/-!
# Checking signatures

Model of `DkimVerifier` (`verify`, `verify_signature`, `fetch_public_key`), after RFC 6376.

* `Signature.ofTags` is all that can be said of a signature before its key is looked up. The checks
  are made in a fixed order; all faults are permanent errors but one: an expired signature fails.
* `fetchKey` looks up the key, `Signature.judge` compares the message with the signature.
* `verifyOne` does all of that for one signature, `verify` for a message: of at most five signatures
  the first valid one counts, or else the first of those that tell the most.
-/

namespace MailScreen.Dkim

open MailScreen.Text

/-- How many signatures of a message are checked. -/
def maxSignatures : Nat := 5

/-- A signature, as far as it can be read without its key. -/
structure Signature where
  domain : String
  selector : String
  algorithm : Algorithm
  /-- The names of the signed fields, in lower case. -/
  names : List String
  bodyHash : List UInt8
  bytes : List UInt8
  headerForm : Form
  bodyForm : Form
  /-- How much of the canonical body is signed, as it is written. -/
  length : Option String
  deriving Repr, DecidableEq

/-- The names in a list of signed fields. -/
def signedNames (s : String) : List String :=
  ((pieces (· == ':') s.toList).map fun cs => String.ofList (lowerAscii (trim cs))).filter (· ≠ "")

/-- Whether the identity of the signer lies in the domain that signs. -/
def identityFits (identity domain : String) : Bool :=
  let d := DomainName.normalizeChars domain.toList
  match cutLast (· == '@') identity.toList with
  | some (_, tail) =>
    let tail := DomainName.normalizeChars tail
    tail == d || ('.' :: d).isSuffixOf tail
  | none => false

/-- Reads a whole number in the range of 64 bits with a sign. -/
def integer? (cs : List Char) : Option Int :=
  match cs with
  | '-' :: c :: rest =>
    match unsigned? 9223372036854775808 (c :: rest) with
    | .ok n => if c = '+' then none else some (-n)
    | .error _ => none
  | _ =>
    match unsigned? 9223372036854775807 cs with
    | .ok n => some n
    | .error _ => none

/-- Whether a signature may still be used at a time, in seconds; without an end it may. -/
def checkExpiry (now : Int) : Option String → Except Result Unit
  | none => .ok ()
  | some text =>
    match integer? text.toList with
    | some x => if x < now then .error .fail else .ok ()
    | none => .error .permError

/-- A value that must be there. -/
def required {α : Type} : Option α → Except Result α
  | some a => .ok a
  | none => .error .permError

/-- Goes on only if a condition holds. -/
def demand (b : Bool) : Except Result Unit :=
  if b then .ok () else .error .permError

/-- Reads a signature. -/
def Signature.ofTags (now : Int) (t : Tags) : Except Result Signature := do
  let domain ← required (t.get? "d")
  let selector ← required (t.get? "s")
  demand (t.get? "v" == some "1")
  let bodyHash ← required (t.get? "bh")
  let names ← required (t.get? "h")
  let bytes ← required (t.get? "b")
  let algorithm ← required ((t.get? "a").bind Algorithm.ofText?)
  let names := signedNames names
  demand (names.contains "from")
  demand ((t.get? "i").all (identityFits · domain))
  checkExpiry now (t.get? "x")
  let bodyHash ← required (Base64.decode? bodyHash.toList)
  let bytes ← required (Base64.decode? bytes.toList)
  demand (! bytes.isEmpty)
  let (headerForm, bodyForm) ← required (Form.pair? ((t.get? "c").getD "simple/simple"))
  return ⟨domain, selector, algorithm, names, bodyHash, bytes, headerForm, bodyForm, t.get? "l"⟩

/-- The name at which a key is published. -/
def keyName (selector domain : String) : String :=
  selector ++ "._domainkey." ++ domain

/-- The tags of the first text that is a key. -/
def keyTags? (texts : List String) : Option Tags :=
  (texts.filterMap fun s => (Tags.ofText s).toOption).find? (·.contains "p")

/-- The key in the texts at its name, for an algorithm. -/
def keyOf (scheme : Scheme) (algorithm : Algorithm) (texts : List String) :
    Except Result Acceptance := do
  let t ← required (keyTags? texts)
  demand ((t.get? "v").all (· == "DKIM1"))
  demand (((t.get? "k").map lowerAsciiString).getD "rsa" == algorithm.keyType)
  let p := (t.get? "p").getD ""
  demand (p != "")
  required (scheme.readKey algorithm p)

/-- Looks up the key of a signature. -/
def fetchKey (scheme : Scheme) (ctx : Dns.Context) (r : Dns.Resolver) (algorithm : Algorithm)
    (name : String) : StateM Dns.Session (Except Result Acceptance) := do
  match ← ctx.txt r name with
  | .ok texts => return keyOf scheme algorithm texts
  | .error .notFound => return .error .permError
  | .error _ => return .error .tempError

/-- The part of a canonical body that is signed. -/
def signedBody (length : Option String) (bytes : List UInt8) : Except Result (List UInt8) :=
  match length with
  | none => .ok bytes
  | some text =>
    match unsigned? 18446744073709551615 text.toList with
    | .ok n => if n ≤ bytes.length then .ok (bytes.take n) else .error .permError
    | .error _ => .error .permError

/-- Whether a signature fits a message under a key; `text` is the text of the signature. -/
def Signature.judge (sig : Signature) (scheme : Scheme) (accepts : Acceptance)
    (m : Mail.Message) (text : String) : Result :=
  match signedBody sig.length (body sig.bodyForm m.body) with
  | .error e => e
  | .ok bytes =>
    if scheme.hash bytes ≠ sig.bodyHash then .fail
    else
      match withoutSignature text with
      | .error _ => .permError
      | .ok stripped =>
        if accepts (headerBytes sig.headerForm m.headers sig.names stripped) sig.bytes then .pass
        else .fail

/-- What is found of a signature with these tags. -/
def verifyTags (scheme : Scheme) (ctx : Dns.Context) (r : Dns.Resolver) (now : Int)
    (m : Mail.Message) (text : String) (t : Tags) : StateM Dns.Session Result := do
  match Signature.ofTags now t with
  | .error e => return e
  | .ok sig =>
    match ← fetchKey scheme ctx r sig.algorithm (keyName sig.selector sig.domain) with
    | .error e => return e
    | .ok accepts => return sig.judge scheme accepts m text

/-- What is found of a signature. -/
def verifyOne (scheme : Scheme) (ctx : Dns.Context) (r : Dns.Resolver) (now : Int)
    (m : Mail.Message) (text : String) : StateM Dns.Session Outcome := do
  match Tags.ofText text with
  | .error _ => return .ofTags .permError none none
  | .ok t =>
    return .ofTags (← verifyTags scheme ctx r now m text t) (t.get? "d") (t.get? "s")

/-- Of two outcomes that are not valid, the one to report: the later only if it tells more. -/
def moreTelling (earlier : Option Outcome) (later : Outcome) : Outcome :=
  match earlier with
  | some o => if later.result.rank ≤ o.result.rank then o else later
  | none => later

/-- Checks signatures until one is valid; `best` is the most telling outcome so far. -/
def verifyAll (check : String → StateM Dns.Session Outcome) :
    Option Outcome → List String → StateM Dns.Session Outcome
  | best, [] => return best.getD .unsigned
  | best, text :: rest => do
    let o ← check text
    if o.isValid then return o else verifyAll check (some (moreTelling best o)) rest

/-- Checks the signatures of a message at a time, in seconds. -/
def verify (scheme : Scheme) (ctx : Dns.Context) (r : Dns.Resolver) (now : Int)
    (m : Mail.Message) : StateM Dns.Session Outcome :=
  verifyAll (verifyOne scheme ctx r now m) none
    ((m.headers.getAll "dkim-signature").take maxSignatures)

end MailScreen.Dkim
