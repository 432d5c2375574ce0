import MailScreen.Config.Settings
import MailScreen.Dkim.Outcome
import MailScreen.Dmarc.Evaluate
import MailScreen.Dns.Context
import MailScreen.Greylist.Store
import MailScreen.RateLimit.Limiter
import MailScreen.Request
import MailScreen.Spf.Outcome
import MailScreen.Verdict

/-!
# Contributions

Model of `Signal`, `Outcomes` with the `AuthenticationResult` in it, `Contribution`, and of the
interface `Contributor`.

A check asks its contributors one after the other. Each of them adds points, with a reason, or ends
the check; and it may tell the later ones what it has found.

* `Findings` is what has been found so far, `Findings.summary` its words for header fields.
* `Contribution.score` and `Contribution.hard` are the two kinds of contributions.
* `Contributor` is anything that contributes. It may change the stores and do lookups.
-/

namespace MailScreen

/-- The set of points that a check uses. -/
inductive Mode where
  | standard
  /-- For callers that pass on few header fields. -/
  | minimal
  deriving Repr, DecidableEq

/-- What a contributor tells the later ones. -/
inductive Signal where
  | spf (outcome : Spf.Outcome) (domain : Option String)
  | dkim (outcome : Dkim.Outcome)
  | dmarc (outcome : Dmarc.Outcome) (author : String)
  | suspiciousHelo
  deriving Repr, DecidableEq

/-- Whether what was to be checked could not be. -/
def Signal.isDegraded : Signal → Bool
  | spf outcome _ => outcome.isError
  | dkim outcome => outcome.result.isError
  | dmarc outcome _ => outcome.result.isError
  | suspiciousHelo => false

/-- What has been found so far. -/
structure Findings where
  spf : Option Spf.Outcome
  spfDomain : Option String
  dkim : Option Dkim.Outcome
  dmarc : Option Dmarc.Outcome
  author : Option String
  suspiciousHelo : Bool
  deriving Repr, DecidableEq

namespace Findings

/-- Nothing has been found. -/
def nothing : Findings :=
  ⟨none, none, none, none, none, false⟩

/-- Takes down what a contributor tells; it replaces what was told before of the same method. -/
def record (f : Findings) : Signal → Findings
  | .spf outcome domain => { f with spf := some outcome, spfDomain := domain }
  | .dkim outcome => { f with dkim := some outcome }
  | .dmarc outcome author => { f with dmarc := some outcome, author := some author }
  | .suspiciousHelo => { f with suspiciousHelo := true }

/-- The outcome for the sender; none if it has not been checked. -/
def spfOutcome (f : Findings) : Spf.Outcome :=
  f.spf.getD .none

/-- The outcome for the signatures; that of an unsigned message if they have not been checked. -/
def dkimOutcome (f : Findings) : Dkim.Outcome :=
  f.dkim.getD .unsigned

/-- The words for header fields. -/
def summary (f : Findings) : AuthSummary where
  spf := f.spfOutcome.name
  spfDomain := f.spfDomain
  dkim := f.dkimOutcome.result.name
  dkimDomain := f.dkimOutcome.domain
  dmarc := f.dmarc.elim "none" (·.result.name)
  fromDomain := f.author

end Findings

/-- What a contributor adds to a check. -/
structure Contribution where
  /-- The points; with a decision, the score to report with it. -/
  points : Int
  /-- The decision that ends the check, if it is to end. -/
  decision : Option Decision
  reason : Option String
  signal : Option Signal
  deriving Repr, DecidableEq

namespace Contribution

/-- Nothing to add. -/
def none : Contribution :=
  ⟨0, .none, .none, .none⟩

/-- Points with a reason; no points need no reason. -/
def score (points : Int) (reason : String) : Contribution :=
  ⟨points, .none, if points = 0 then .none else some reason, .none⟩

/-- Ends the check with a decision. -/
def hard (decision : Decision) (score : Int) (reason : String) : Contribution :=
  ⟨score, some decision, some reason, .none⟩

/-- The same contribution, which tells something. -/
def telling (c : Contribution) (s : Signal) : Contribution :=
  { c with signal := some s }

end Contribution

/-- What contributors may change: the clock and the list of lookups, and the two stores. -/
structure Stores where
  session : Dns.Session
  greylist : Greylist.Store
  limiter : RateLimit.Limiter Float

/-- What is to be checked, and how. -/
structure Task where
  request : Request
  context : Dns.Context
  mode : Mode
  weights : Config.Weights
  /-- The time of day in seconds, against which the expiry of signatures is held. -/
  timeOfDay : Int

/-- A step of a check. -/
structure Contributor where
  /-- Names the contributor in metrics. -/
  name : String
  evaluate : Task → Findings → Stores → Contribution × Stores

/-- A contributor that changes nothing but the clock and the list of lookups. -/
def Contributor.ofLookups (name : String)
    (evaluate : Task → Findings → StateM Dns.Session Contribution) : Contributor where
  name := name
  evaluate task findings stores :=
    let (c, session) := evaluate task findings stores.session
    (c, { stores with session })

end MailScreen
