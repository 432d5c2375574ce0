import MailScreen.Ip.Address
import MailScreen.RateLimit.Amount
import MailScreen.Table
import MailScreen.Time

/-!
# Token buckets

Model of `RateLimiter` (`consume_at`, `prune_at`), `RateKey` and `RateBucket`.

Every client address and every identity has a bucket of tokens. An attempt takes its cost out of
the bucket if there is enough in it; a bucket fills up again with time.

* `Bucket.refill` fills a bucket up to an instant; an earlier instant than the last one changes
  nothing.
* `Limiter.consume` is one attempt. A cost below zero, or one that is not a number, is refused
  and changes nothing.
* `Limiter.prune` drops the buckets that are full again: a key without a bucket has a full one.
-/

namespace MailScreen.RateLimit

open MailScreen.Time

/-- What a bucket belongs to. -/
inductive Key where
  | client (address : Ip.Address)
  | identity (name : String)
  deriving Repr, DecidableEq

/-- The written form of a key. -/
def Key.toText : Key → String
  | client a => "ip:" ++ a.toText
  | identity name => "identity:" ++ name

/-- The size of a bucket, and what flows into it in a second. -/
structure Limits (α : Type) where
  capacity : α
  refill : α
  deriving Repr

/-- What is in a bucket, and since when. -/
structure Bucket (α : Type) where
  tokens : α
  filledAt : Int
  deriving Repr

/-- What became of an attempt, and what it left in the bucket. -/
structure Outcome (α : Type) where
  allowed : Bool
  remaining : α
  deriving Repr

/-- The buckets and their limits. -/
structure Limiter (α : Type) where
  client : Limits α
  identity : Limits α
  buckets : Table Key (Bucket α)
  deriving Repr

variable {α : Type}

namespace Limiter

/-- A limiter that has seen nothing yet. -/
def fresh (client identity : Limits α) : Limiter α :=
  ⟨client, identity, .empty⟩

/-- The limits for a key. -/
def limits (l : Limiter α) : Key → Limits α
  | .client _ => l.client
  | .identity _ => l.identity

/-- The bucket of a key; one that has not been used is full. -/
def bucket (l : Limiter α) (key : Key) (now : Int) : Bucket α :=
  (l.buckets.find? key).getD ⟨(l.limits key).capacity, now⟩

end Limiter

variable [Add α] [Sub α] [Mul α] [LT α] [LE α] [DecidableLT α] [DecidableLE α] [Amount α]

namespace Bucket

/-- What has flowed in since the bucket was last filled. -/
def inflow (b : Bucket α) (limits : Limits α) (now : Int) : α :=
  Amount.ofSpan (elapsed b.filledAt now) * limits.refill

/-- The bucket at an instant. -/
def refill (b : Bucket α) (limits : Limits α) (now : Int) : Bucket α :=
  ⟨least (b.tokens + b.inflow limits now) limits.capacity, max now b.filledAt⟩

/-- The bucket without some of its tokens. -/
def spend (b : Bucket α) (limits : Limits α) (cost : α) : Bucket α :=
  { b with tokens := between Amount.zero limits.capacity (b.tokens - cost) }

/-- Whether there is enough for a cost. -/
def covers (b : Bucket α) (cost : α) : Bool :=
  cost ≤ b.tokens + Amount.slack

/-- Whether the bucket is as good as full. -/
def isFull (b : Bucket α) (limits : Limits α) : Bool :=
  !decide (b.tokens + Amount.slack < limits.capacity)

end Bucket

namespace Limiter

/-- Whether a cost can be asked for. -/
def isCost (cost : α) : Bool :=
  Amount.isNumber cost && !decide (cost < Amount.zero)

/-- One attempt to take some tokens. -/
def consume (l : Limiter α) (key : Key) (cost : α) (now : Int) : Outcome α × Limiter α :=
  let b := l.bucket key now
  if !isCost cost then (⟨false, b.tokens⟩, l)
  else
    let limits := l.limits key
    let b := b.refill limits now
    let allowed := b.covers cost
    let b := if allowed then b.spend limits cost else b
    (⟨allowed, b.tokens⟩, { l with buckets := l.buckets.put key b })

/-- Drops the buckets that are full at an instant, and says how many there were. -/
def prune (l : Limiter α) (now : Int) : Nat × Limiter α :=
  let kept := l.buckets.choose fun key b =>
    let b := b.refill (l.limits key) now
    if b.isFull (l.limits key) then none else some b
  (l.buckets.size - kept.size, { l with buckets := kept })

/-- The limiter after the last tick before an instant of a clock that prunes at its ticks; a bucket
that was full at an earlier tick and has not been used since is full at that one. -/
def sweep (l : Limiter α) (start : Int) (interval : Nat) (before : Int) : Limiter α :=
  match lastTick? start interval before with
  | some tick => (l.prune tick).2
  | none => l

end Limiter

end MailScreen.RateLimit
