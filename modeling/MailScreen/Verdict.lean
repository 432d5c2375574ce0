import MailScreen.Json.Record

/-!
# Verdicts

Model of `Decision`, `SmtpReply`, `AuthSummary`, `CheckResult` and `clamp_score`.

What a check comes to: a decision, a score from 0 to 100, reasons for people and a summary of what
the three authentication methods found.

* `Decision` has a name, a reply for the remote peer that says nothing about the reasons, and an
  order of severity.
* `Verdict.authenticationResults` is the value of the header field that tells later programs what
  was found.
* `clampScore` brings a sum of weights into the range of scores.
-/

namespace MailScreen

/-- What is to happen to a message. -/
inductive Decision where
  | accept
  | greylistDefer
  | quarantine
  | reject
  deriving Repr, DecidableEq

/-- A reply in the mail transaction. -/
structure SmtpReply where
  code : Nat
  enhanced : String
  text : String
  deriving Repr, DecidableEq

namespace SmtpReply

/-- The reply line. -/
def toText (r : SmtpReply) : String :=
  toString r.code ++ " " ++ r.enhanced ++ " " ++ r.text

/-- Whether the peer must not try again. -/
def isPermanent (r : SmtpReply) : Bool :=
  500 ≤ r.code

/-- Whether the peer may try again. -/
def isTransient (r : SmtpReply) : Bool :=
  400 ≤ r.code && r.code < 500

end SmtpReply

namespace Decision

/-- All decisions. -/
def all : List Decision := [accept, greylistDefer, quarantine, reject]

/-- The name of the decision. -/
def name : Decision → String
  | accept => "accept"
  | greylistDefer => "greylist_defer"
  | quarantine => "quarantine"
  | reject => "reject"

/-- The decision of a name. -/
def ofName? (s : String) : Option Decision :=
  all.find? (·.name == s)

/-- Reads a decision. -/
def ofJson? (v : Json.Value) : Option Decision :=
  (Json.caseName? v).bind ofName?

/-- What the peer is told; a quarantined message is accepted as far as the peer knows. -/
def reply : Decision → SmtpReply
  | accept | quarantine => ⟨250, "2.0.0", "OK"⟩
  | greylistDefer => ⟨451, "4.7.1", "Please try again later"⟩
  | reject => ⟨550, "5.7.1", "Message rejected"⟩

/-- Whether the message goes into quarantine and not into the inbox. -/
def isQuarantine (d : Decision) : Bool :=
  d == quarantine

end Decision

/-- What the authentication methods found, as the words of header fields. -/
structure AuthSummary where
  spf : String
  spfDomain : Option String
  dkim : String
  dkimDomain : Option String
  dmarc : String
  fromDomain : Option String
  deriving Repr, DecidableEq

namespace AuthSummary

/-- Nothing was found. -/
def nothing : AuthSummary :=
  ⟨"none", none, "none", none, "none", none⟩

/-- The members of the summary, in order. -/
def toJson (a : AuthSummary) : Json.Value :=
  .ofMembers [("spf", .text a.spf), ("spf_domain", .ofOption a.spfDomain),
    ("dkim", .text a.dkim), ("dkim_domain", .ofOption a.dkimDomain),
    ("dmarc", .text a.dmarc), ("from_domain", .ofOption a.fromDomain)]

/-- Reads a summary; the domains may be missing. -/
def ofJson? (v : Json.Value) : Option AuthSummary := do
  let [spf, spfDomain, dkim, dkimDomain, dmarc, fromDomain] ←
    Json.record? ["spf", "spf_domain", "dkim", "dkim_domain", "dmarc", "from_domain"] 6 v
    | none
  let nullable := fun (v : Option Json.Value) => Json.nullableText? (v.getD .null)
  return ⟨← Json.text? (← spf), ← nullable spfDomain, ← Json.text? (← dkim),
    ← nullable dkimDomain, ← Json.text? (← dmarc), ← nullable fromDomain⟩

end AuthSummary

/-- A score from 0 to 100. -/
abbrev Score := Fin 101

/-- The score nearest to a sum of weights. -/
def clampScore (sum : Int) : Score :=
  ⟨(min (max sum 0) 100).toNat, by omega⟩

/-- The outcome of a check. -/
structure Verdict where
  /-- Names the check in logs. -/
  id : String
  decision : Decision
  score : Score
  /-- Reasons for people, in the order in which they arose. -/
  reasons : List String
  auth : AuthSummary
  deriving Repr, DecidableEq

namespace Verdict

/-- A method's part of the header value: its word, and the domain it is about. -/
def methodPart (method word property : String) (domain : Option String) : String :=
  match domain with
  | none => method ++ "=" ++ word
  | some d => method ++ "=" ++ word ++ " " ++ property ++ "=" ++ d

/-- The value of the field `Authentication-Results`: the host, then a part for each method. -/
def authenticationResults (v : Verdict) (host : String) : String :=
  "; ".intercalate [host,
    methodPart "spf" v.auth.spf "smtp.mailfrom" v.auth.spfDomain,
    methodPart "dkim" v.auth.dkim "header.d" v.auth.dkimDomain,
    methodPart "dmarc" v.auth.dmarc "header.from" v.auth.fromDomain]

/-- The members of the verdict, in order. -/
def toJson (v : Verdict) : Json.Value :=
  .ofMembers [("check_id", .text v.id), ("decision", .text v.decision.name),
    ("score", .number (toString v.score.val)), ("reasons", .strings v.reasons),
    ("auth", v.auth.toJson)]

end Verdict

end MailScreen
