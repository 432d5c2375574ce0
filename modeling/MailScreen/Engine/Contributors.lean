import MailScreen.Dkim.Verify
import MailScreen.Engine.Contribution
import MailScreen.Helo
import MailScreen.RateLimit.Admission
import MailScreen.Spf.Evaluate
import MailScreen.Text.Quoted

/-!
# The contributors

Model of `RateLimitGate`, `GreylistGate`, `SpfContributor`, `DkimContributor`, `DmarcContributor`
and `HeloContributor`.

Two gates come first, and each of them may end a check: `rateLimitGate` and `greylistGate`. The
others add points for what they find: `spfCheck`, `dkimCheck`, `dmarcCheck` and `heloCheck`. A
message without an author is judged by the domain of its envelope if the caller passes on few
header fields.
-/

namespace MailScreen.Engine

/-- Whether the reason names a domain, and which. -/
def aboutDomain (finding : String) : Option String → String
  | some d => finding ++ " for " ++ d
  | none => finding

/-- Rejects a message whose client or identity has sent too many. -/
def rateLimitGate (score : Int) : Contributor where
  name := "rate_limit"
  evaluate task _ stores :=
    let (refusal, limiter) := stores.limiter.admit task.request stores.session.now
    let c := match refusal with
      | some refusal => .hard .reject score refusal.reason
      | none => .none
    (c, { stores with limiter })

/-- Defers a message of an unknown sender. -/
def greylistGate (hash : List UInt8 → List UInt8) (score : Int) : Contributor where
  name := "greylist"
  evaluate task _ stores :=
    let (finding, greylist) := stores.greylist.check hash task.request stores.session.now
    let c := match finding.ruling with
      | .defer => .hard .greylistDefer score "greylisted, retry later"
      | .pass => .none
    (c, { stores with greylist })

/-- The points for an outcome for the sender. -/
def spfPoints (w : Config.Weights) : Spf.Outcome → Int
  | .pass => w.spfPass
  | .fail => w.spfFail
  | .softFail => w.spfSoftfail
  | .neutral => w.spfNeutral
  | .none => w.spfNone
  | .tempError => w.spfTemperror
  | .permError => w.spfPermerror

/-- Checks whether the client may send for the sender. -/
def spfCheck (r : Dns.Resolver) (limit : Nat) : Contributor :=
  .ofLookups "spf" fun task _ => do
    let q := task.request
    let (outcome, domain) ← Spf.verify r task.context limit q.sender q.helo q.client
    return (Contribution.score (spfPoints task.weights outcome)
      (aboutDomain ("SPF " ++ outcome.name) domain)).telling (.spf outcome domain)

/-- The points for an outcome for the signatures. -/
def dkimPoints (w : Config.Weights) : Dkim.Result → Int
  | .pass => w.dkimPass
  | .fail => w.dkimFail
  | .none => w.dkimNone
  | .tempError => w.dkimTemperror
  | .permError => w.dkimPermerror

/-- Checks the signatures of the message. -/
def dkimCheck (scheme : Dkim.Scheme) (r : Dns.Resolver) : Contributor :=
  .ofLookups "dkim" fun task _ => do
    let outcome ← Dkim.verify scheme task.context r task.timeOfDay task.request.message
    return (Contribution.score (dkimPoints task.weights outcome.result)
      (aboutDomain ("DKIM " ++ outcome.result.name) outcome.domain)).telling (.dkim outcome)

/-- The points for what the author's policy makes of the message; no policy weighs nothing. -/
def dmarcPoints (w : Config.Weights) : Dmarc.Result → Int
  | .pass => w.dmarcPass
  | .none => 0
  | .fail .none => w.dmarcFailNone
  | .fail .quarantine => w.dmarcFailQuarantine
  | .fail .reject => w.dmarcFailReject
  | .tempError => w.dmarcTemperror
  | .permError => w.dmarcPermerror

/-- The reason that goes with these points. -/
def dmarcReason (author : String) : Dmarc.Result → String
  | .fail policy => "DMARC fail for " ++ author ++ " (p=" ++ policy.name ++ ")"
  | result => "DMARC " ++ result.name ++ " for " ++ author

/-- The domain whose policy applies: that of the author, or of the envelope's sender if few header
fields are passed on. -/
def policyDomain? (task : Task) : Option String :=
  match task.request.message.author?, task.mode with
  | some d, _ => some d
  | none, .minimal => task.request.sender.map (·.domain)
  | none, .standard => none

/-- What a message without a domain to ask for a policy adds. -/
def withoutAuthor (task : Task) : Contribution :=
  match task.mode with
  | .standard => .score task.weights.missingAuthor "missing From header"
  | .minimal => .none

/-- Judges the message by the policy of its author's domain. -/
def dmarcCheck (reg : Registry) (r : Dns.Resolver) : Contributor :=
  .ofLookups "dmarc" fun task findings =>
    match policyDomain? task with
    | none => pure (withoutAuthor task)
    | some author => do
      let outcome ← Dmarc.evaluate reg task.context r author findings.spfOutcome
        findings.spfDomain findings.dkimOutcome
      return (Contribution.score (dmarcPoints task.weights outcome.result)
        (dmarcReason author outcome.result)).telling (.dmarc outcome author)

/-- Adds points for a client that does not introduce itself properly. -/
def heloCheck : Contributor where
  name := "helo"
  evaluate task _ stores :=
    let helo := task.request.helo
    let c := if Helo.isSuspicious helo task.request.client
      then (Contribution.score task.weights.heloSuspicious
        ("suspicious HELO " ++ Text.quoted helo)).telling .suspiciousHelo
      else .none
    (c, stores)

/-- The contributors of every check, in order. -/
def standardContributors (scheme : Dkim.Scheme) (reg : Registry) (r : Dns.Resolver)
    (c : Config) : List Contributor :=
  [rateLimitGate c.scoring.rateLimitScore, greylistGate scheme.hash c.scoring.greylistScore,
    spfCheck r c.spf.maxLookups, dkimCheck scheme r, dmarcCheck reg r, heloCheck]

end MailScreen.Engine
