import MailScreen.RateLimit.Limiter
import MailScreen.Request
import MailScreen.Text.Lowercase

/-!
# Admission

Model of the two buckets that `RateLimitGate` asks.

Each message costs one token of its client's bucket and, if the client has logged in, one of the
bucket of its identity, whatever its case. `Limiter.admit` says whose bucket was empty, if one was;
an empty bucket of the client leaves that of the identity alone.
-/

namespace MailScreen.RateLimit

/-- Whose bucket was empty. -/
inductive Refusal where
  | client
  | identity
  deriving Repr, DecidableEq

/-- What people are told. -/
def Refusal.reason : Refusal → String
  | client => "rate limit exceeded for client IP"
  | identity => "rate limit exceeded for authenticated sender"

variable {α : Type} [Add α] [Sub α] [Mul α] [LT α] [LE α] [DecidableLT α] [DecidableLE α] [Amount α]

/-- Takes what a message costs. -/
def Limiter.admit (l : Limiter α) (r : Request) (now : Int) : Option Refusal × Limiter α :=
  let (outcome, l) := l.consume (.client r.client) Amount.one now
  if !outcome.allowed then (some .client, l)
  else
    match r.identity with
    | none => (none, l)
    | some name =>
      let (outcome, l) := l.consume (.identity (Text.lowerFullString name)) Amount.one now
      (if outcome.allowed then none else some .identity, l)

end MailScreen.RateLimit
