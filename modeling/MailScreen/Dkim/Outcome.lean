import MailScreen.DomainName
import MailScreen.Json.Record

/-!
# Outcomes of signature checks

Model of `DkimResult`, `DkimOutcome` and `SigningAlgorithm`.

* `Result` is what is found of one signature; `Result.rank` says which of several failures tells the
  most.
* `Outcome` names the signature as well; `Outcome.ofTags` puts its domain into normal form.
* `Algorithm` is how a signature is made.
-/

namespace MailScreen.Dkim

open MailScreen.Text

/-- What is found of a signature. -/
inductive Result where
  | pass
  | fail
  /-- The message has no signature. -/
  | none
  /-- The key could not be looked up for now. -/
  | tempError
  /-- The signature or its key is malformed. -/
  | permError
  deriving Repr, DecidableEq

namespace Result

/-- All results. -/
def all : List Result := [pass, fail, none, tempError, permError]

/-- The word for the result in header fields. -/
def name : Result → String
  | pass => "pass"
  | fail => "fail"
  | none => "none"
  | tempError => "temperror"
  | permError => "permerror"

/-- The result of a word. -/
def ofName? (s : String) : Option Result :=
  all.find? (·.name == s)

/-- Reads a result. -/
def ofJson? (v : Json.Value) : Option Result :=
  (Json.caseName? v).bind ofName?

/-- How much a result tells; the highest is reported. -/
def rank : Result → Nat
  | pass => 4
  | fail => 3
  | tempError => 2
  | permError => 1
  | none => 0

/-- Whether the signature could not be checked. -/
def isError (r : Result) : Bool :=
  r == tempError || r == permError

end Result

/-- What is found of a message, and the signature that tells it. -/
structure Outcome where
  result : Result
  /-- The domain that signed, in normal form. -/
  domain : Option String
  /-- The name of its key. -/
  selector : Option String
  deriving Repr, DecidableEq

namespace Outcome

/-- The outcome for a message without a signature. -/
def unsigned : Outcome := ⟨.none, none, none⟩

/-- The outcome of a signature with these tags. -/
def ofTags (r : Result) (domain selector : Option String) : Outcome :=
  ⟨r, domain.map DomainName.normalize, selector⟩

/-- Whether a signature is valid. -/
def isValid (o : Outcome) : Bool :=
  o.result == .pass

/-- Whether there is a signature. -/
def isSigned (o : Outcome) : Bool :=
  o.result != .none

/-- The members of the outcome, in order. -/
def toJson (o : Outcome) : Json.Value :=
  .ofMembers [("result", .text o.result.name), ("domain", .ofOption o.domain),
    ("selector", .ofOption o.selector)]

/-- Reads an outcome. -/
def ofJson? (v : Json.Value) : Option Outcome := do
  let [result, domain, selector] ← Json.record? ["result", "domain", "selector"] 3 v
    | none
  return ⟨← Result.ofJson? (← result), ← Json.nullableText? (domain.getD .null),
    ← Json.nullableText? (selector.getD .null)⟩

end Outcome

/-- How a signature is made. -/
inductive Algorithm where
  | rsa
  | ed25519
  deriving Repr, DecidableEq

namespace Algorithm

/-- The name of the algorithm in signatures. -/
def name : Algorithm → String
  | rsa => "rsa-sha256"
  | ed25519 => "ed25519-sha256"

/-- The kind of key that the algorithm takes. -/
def keyType : Algorithm → String
  | rsa => "rsa"
  | ed25519 => "ed25519"

/-- The algorithm of a name, whatever its letter case. -/
def ofText? (s : String) : Option Algorithm :=
  let name := lowerAscii (trim s.toList)
  [rsa, ed25519].find? (·.name.toList == name)

end Algorithm

end MailScreen.Dkim
