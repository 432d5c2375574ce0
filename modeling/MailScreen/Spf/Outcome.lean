import MailScreen.Json.Record

/-!
# Outcomes of a sender policy check

Model of `SpfResult`.
-/

namespace MailScreen.Spf

/-- What a sender policy says about a client. -/
inductive Outcome where
  /-- The client may send for the domain. -/
  | pass
  /-- The client may not. -/
  | fail
  /-- The client probably may not. -/
  | softFail
  /-- The policy says nothing about the client. -/
  | neutral
  /-- The domain has no policy. -/
  | none
  /-- The policy could not be looked up for now. -/
  | tempError
  /-- The policy is faulty. -/
  | permError
  deriving Repr, DecidableEq

namespace Outcome

/-- All outcomes. -/
def all : List Outcome := [pass, fail, softFail, neutral, none, tempError, permError]

/-- The word for the outcome in header fields. -/
def name : Outcome → String
  | pass => "pass"
  | fail => "fail"
  | softFail => "softfail"
  | neutral => "neutral"
  | none => "none"
  | tempError => "temperror"
  | permError => "permerror"

/-- The outcome of a word. -/
def ofName? (s : String) : Option Outcome :=
  all.find? (·.name == s)

/-- Reads an outcome. -/
def ofJson? (v : Json.Value) : Option Outcome :=
  (Json.caseName? v).bind ofName?

/-- Whether the policy could not be applied. -/
def isError (o : Outcome) : Bool :=
  o == tempError || o == permError

end Outcome

end MailScreen.Spf
