import MailScreen.Config.Valid
import MailScreen.Dkim.Sign
import MailScreen.Engine.Contributors
import MailScreen.Engine.Run
import MailScreen.Greylist.Sweeper

/-!
# The engine

Model of `EngineBuilder.build` and of `Engine` (`check`, `check_legacy`, `new_context`).

An engine judges messages by the settings it was built from. What it remembers from one message to
the next is its `State`.

* `Engine.build` refuses settings that cannot be used. It reads the signing key through a function,
  as it has no access to files of its own.
* `Engine.check` judges a message. What goes wrong during a check becomes part of the verdict.
* `State.prune` drops what need not be remembered any longer, `State.sweep` does so at each tick of
  a clock.
-/

namespace MailScreen

/-- What judges messages. -/
structure Engine where
  contributors : List Contributor
  scoring : Config.Scoring
  /-- How long a check may take. -/
  checkTimeout : Nat
  hostname : String
  /-- What signs outgoing messages, if they are to be signed. -/
  signer : Option Dkim.Signer

namespace Engine

/-- What an engine remembers. -/
structure State where
  stores : Stores
  metrics : Metrics

/-- A limiter with the buckets that the settings ask for. -/
def limiterOf (c : Config.RateLimits) : RateLimit.Limiter Float :=
  .fresh c.client c.identity

/-- An engine that has seen nothing yet, at an instant. -/
def State.fresh (c : Config) (now : Int) : State where
  stores := ⟨⟨now, []⟩, .fresh (.ofSettings c.greylist), limiterOf c.rateLimit⟩
  metrics := .fresh

/-- What signatures say that the settings ask for. -/
def signingOptions (s : Config.Signing) (algorithm : Dkim.Algorithm) : Dkim.SigningOptions :=
  let o := Dkim.SigningOptions.ofDomain (DomainName.normalize s.domain) s.selector
  { o with
    algorithm
    names := if s.headers.isEmpty then o.names else s.headers.map Text.lowerAsciiString }

/-- The signer that the settings ask for; `keyText` gives the text of a file, or what is wrong with
it. -/
def makeSigner (keyText : String → Except String String) (s : Config.Signing) :
    Except Error Dkim.Signer :=
  match Dkim.Algorithm.ofText? s.algorithm with
  | none => .error ⟨.configuration, "Unsupported DKIM algorithm: " ++ s.algorithm⟩
  | some algorithm =>
    match keyText s.keyPath with
    | .error what =>
      .error ⟨.configuration, "Failed to read DKIM key " ++ s.keyPath ++ ": " ++ what⟩
    | .ok pem => Dkim.Signer.make (signingOptions s algorithm) pem

/-- The signer that the settings ask for, if they do. -/
def signer? (keyText : String → Except String String) :
    Option Config.Signing → Except Error (Option Dkim.Signer)
  | none => .ok none
  | some s => (makeSigner keyText s).map some

/-- An engine with more contributors after its own. -/
def build (scheme : Dkim.Scheme) (reg : Registry) (r : Dns.Resolver)
    (keyText : String → Except String String) (extra : List Contributor) (c : Config) :
    Except Error Engine := do
  c.check
  return {
    contributors := standardContributors scheme reg r c ++ extra
    scoring := c.scoring
    checkTimeout := Time.milliseconds c.dns.checkTimeout
    hostname := c.server.hostname
    signer := ← signer? keyText c.signing }

/-- The context of a check that begins at an instant. -/
def newContext (e : Engine) (now : Int) : Dns.Context :=
  .after now e.checkTimeout

/-- The points that a check uses. -/
def weights (e : Engine) : Mode → Config.Weights
  | .standard => e.scoring.weights
  | .minimal => e.scoring.minimalWeights

/-- A check as a task of the contributors. -/
def task (e : Engine) (mode : Mode) (ctx : Dns.Context) (r : Request) (timeOfDay : Int) : Task :=
  ⟨r, ctx, mode, e.weights mode, timeOfDay⟩

/-- The verdict that a finished check comes to. -/
def verdict (e : Engine) (id : String) (p : Progress) : Verdict where
  id := id
  decision := p.decision.getD (decide e.scoring p.score)
  score := clampScore p.score
  reasons := p.reasons
  auth := p.findings.summary

/-- Judges a message. The verdict gets the name `id`. -/
def check (e : Engine) (id : String) (mode : Mode) (ctx : Dns.Context) (r : Request)
    (timeOfDay : Int) (s : State) : Verdict × State :=
  let p := run (e.task mode ctx r timeOfDay) e.contributors (.start s.stores s.metrics)
  let v := e.verdict id p
  let span := Time.elapsed s.stores.session.now p.stores.session.now
  (v, ⟨p.stores, p.metrics.recordDecision v.decision span⟩)

namespace State

/-- Drops the greylist entries that have expired and the buckets that are full, and says how many
there were of each. -/
def prune (s : State) : (Nat × Nat) × State :=
  let (entries, greylist) := s.stores.greylist.prune s.stores.session.now
  let (buckets, limiter) := s.stores.limiter.prune s.stores.session.now
  ((entries, buckets), { s with stores := { s.stores with greylist, limiter } })

/-- What is remembered after the ticks before an instant of a clock that prunes at its ticks. -/
def sweep (s : State) (start : Int) (interval : Nat) (before : Int) : State :=
  { s with stores := { s.stores with
      greylist := s.stores.greylist.sweep start interval before
      limiter := s.stores.limiter.sweep start interval before } }

/-- The same memory at a later instant; lookups are listed anew. -/
def resumeAt (s : State) (now : Int) : State :=
  { s with stores := { s.stores with session := ⟨now, []⟩ } }

end State

end Engine

end MailScreen
