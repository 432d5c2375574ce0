import MailScreen.Dkim.Outcome
import MailScreen.Dmarc.Record
import MailScreen.Dns.Context
import MailScreen.Registry
import MailScreen.Spf.Outcome

/-!
# Judging a message by its author's policy

Model of `DmarcVerifier` (`evaluate`, `fetch_dmarc_record`, `lookup_record`), `DmarcOutcome` and
`check_alignment`, after RFC 7489.

A message passes if the domain of its author is aligned with a domain that the sender policy or a
signature has authenticated.

* `aligned` compares domains.
* `discover` finds the policy: at the author's domain, or else at its organizational domain, where
  the policy for subdomains applies. Two policies at one name count as none.
* `evaluate` gives the outcome.
-/

namespace MailScreen.Dmarc

/-- What a policy makes of a message. -/
inductive Result where
  | pass
  /-- The message fails, and this is what the domain asks for. -/
  | fail (policy : Policy)
  /-- There is no policy. -/
  | none
  /-- The policy could not be looked up for now. -/
  | tempError
  /-- The policy is malformed. -/
  | permError
  deriving Repr, DecidableEq

namespace Result

/-- The word for the result in header fields. -/
def name : Result → String
  | pass => "pass"
  | fail _ => "fail"
  | none => "none"
  | tempError => "temperror"
  | permError => "permerror"

/-- What the domain asks for if the message fails. -/
def policy? : Result → Option Policy
  | fail p => some p
  | _ => Option.none

/-- Whether the policy could not be applied. -/
def isError (r : Result) : Bool :=
  r == tempError || r == permError

end Result

/-- What a policy makes of a message, and why. -/
structure Outcome where
  result : Result
  /-- The policy in force. -/
  policy : Policy
  spfAligned : Bool
  dkimAligned : Bool
  deriving Repr, DecidableEq

namespace Outcome

/-- The outcome without a policy to apply. -/
def withoutPolicy (r : Result) : Outcome := ⟨r, .none, false, false⟩

/-- Whether either of the two domains is aligned. -/
def isAligned (o : Outcome) : Bool :=
  o.spfAligned || o.dkimAligned

end Outcome

/-- Whether an authenticated domain is near enough to the author's. -/
def aligned (reg : Registry) (mode : Alignment) (author domain : String) : Bool :=
  let author := DomainName.normalize author
  let domain := DomainName.normalize domain
  match mode with
  | .strict => author == domain
  | .relaxed => reg.organizational author == reg.organizational domain

/-- The policy among the texts at a name. -/
def policyIn (texts : List String) : Except Result (Option Record) :=
  match texts.filter isCandidate with
  | [text] =>
    match Record.ofText text with
    | .ok record => .ok (some record)
    | .error _ => .error .permError
  | _ => .ok none

/-- Looks up the policy of a domain. -/
def lookup (ctx : Dns.Context) (r : Dns.Resolver) (domain : String) :
    StateM Dns.Session (Except Result (Option Record)) := do
  match ← ctx.txt r ("_dmarc." ++ domain) with
  | .ok texts => return policyIn texts
  | .error .notFound => return .ok none
  | .error _ => return .error .tempError

/-- Finds the record for an author's domain in normal form, and the policy that it states for that
domain. -/
def discover (reg : Registry) (ctx : Dns.Context) (r : Dns.Resolver) (domain : String) :
    StateM Dns.Session (Except Result (Option (Record × Policy))) := do
  match ← lookup ctx r domain with
  | .error e => return .error e
  | .ok (some record) => return .ok (some (record, record.policy))
  | .ok none =>
    let organization := reg.organizational domain
    if organization = domain then return .ok none
    else
      match ← lookup ctx r organization with
      | .error e => return .error e
      | .ok none => return .ok none
      | .ok (some record) =>
        return .ok (some (record, record.subdomainPolicy.getD record.policy))

/-- Whether the sender policy has authenticated a domain that is aligned. -/
def spfAligned (reg : Registry) (record : Record) (author : String) (spf : Spf.Outcome)
    (domain : Option String) : Bool :=
  spf == .pass && domain.any (aligned reg record.spfAlignment author)

/-- Whether a signature has authenticated a domain that is aligned. -/
def dkimAligned (reg : Registry) (record : Record) (author : String) (dkim : Dkim.Outcome) :
    Bool :=
  dkim.isValid && dkim.domain.any (aligned reg record.dkimAlignment author)

/-- Applies a policy. -/
def apply (reg : Registry) (record : Record) (policy : Policy) (author : String)
    (spf : Spf.Outcome) (spfDomain : Option String) (dkim : Dkim.Outcome) : Outcome :=
  let bySpf := spfAligned reg record author spf spfDomain
  let byDkim := dkimAligned reg record author dkim
  ⟨if bySpf || byDkim then .pass else .fail policy, policy, bySpf, byDkim⟩

/-- Judges a message of an author's domain by what the other two methods found. -/
def evaluate (reg : Registry) (ctx : Dns.Context) (r : Dns.Resolver) (author : String)
    (spf : Spf.Outcome) (spfDomain : Option String) (dkim : Dkim.Outcome) :
    StateM Dns.Session Outcome := do
  let author := DomainName.normalize author
  match ← discover reg ctx r author with
  | .error e => return .withoutPolicy e
  | .ok none => return .withoutPolicy .none
  | .ok (some (record, policy)) => return apply reg record policy author spf spfDomain dkim

end MailScreen.Dmarc
