import MailScreen.Dns.Lookup

/-!
# Deadline and cancellation

Model of `CheckContext`; `Context.resolve` is its `resolve`, over a clock that is part of the state.

All lookups of one check share a deadline, and the check may be cancelled from outside.

* `Session` is what lookups change: the clock and the list of lookups that were started.
* `Context.resolve` does one lookup. On a cancelled context it does not start. A lookup that takes
  no time succeeds even after the deadline; any other ends at the deadline, or as soon as the check
  is cancelled, if it has not been answered by then.
-/

namespace MailScreen.Dns

open MailScreen.Time

/-- How long a check may go on. -/
structure Context where
  deadline : Int
  /-- When the check is cancelled, if it is. -/
  cancelAt : Option Int
  deriving Repr, DecidableEq

/-- The clock, and the lookups that were started, newest first. -/
structure Session where
  now : Int
  history : List Query
  deriving Repr, DecidableEq

namespace Session

/-- The lookups that were started, in order. -/
def queries (s : Session) : List Query :=
  s.history.reverse

/-- The session after a span without a lookup. -/
def sleep (s : Session) (span : Nat) : Session :=
  { s with now := s.now + span }

/-- The second of two steps goes on where the first has ended. -/
theorem bind_apply {α β : Type} (x : StateM Session α) (f : α → StateM Session β) (s : Session) :
    (x >>= f) s = f (x s).1 (x s).2 := rfl

end Session

namespace Context

/-- The first number of seconds that is too large for a clock. -/
def clockLimit : Nat := 9223372036854775808

/-- A context that ends some span after an instant; a span too large for the clock is cut to the
longest that can be configured. -/
def after (now : Int) (timeout : Nat) : Context :=
  let timeout := if timeout < seconds clockLimit then timeout else seconds maxSeconds
  ⟨now + timeout, none⟩

/-- The same context, cancelled at an instant. -/
def cancelledAt (ctx : Context) (at_ : Option Int) : Context :=
  { ctx with cancelAt := at_ }

/-- Whether the check has been cancelled. -/
def isCancelled (ctx : Context) (now : Int) : Bool :=
  match ctx.cancelAt with
  | some c => c ≤ now
  | none => false

/-- Whether nothing more should be done. -/
def isDone (ctx : Context) (now : Int) : Bool :=
  ctx.isCancelled now || ctx.deadline ≤ now

/-- Whether an instant comes before the cancellation, or is the instant of it. -/
def beforeCancel (ctx : Context) (t : Int) : Bool :=
  match ctx.cancelAt with
  | some c => t ≤ c
  | none => true

/-- What a response comes to under the deadline, and when: the answer if it comes in time, else the
first of the deadline and the cancellation. -/
def await (ctx : Context) {α : Type} (now : Int) (r : Response α) :
    Except LookupError α × Int :=
  let answered := now + r.delay
  let stop := max ctx.deadline now
  if r.delay = 0 then (r.answer, now)
  else if answered ≤ ctx.deadline && ctx.beforeCancel answered then (r.answer, answered)
  else if ctx.beforeCancel stop then (.error .timeout, stop)
  else (.error .cancelled, ctx.cancelAt.getD stop)

/-- Does a lookup; `ask` gives the response for the lookups started before. -/
def resolve (ctx : Context) {α : Type} (query : Query) (ask : List Query → Response α) :
    StateM Session (Except LookupError α) := fun s =>
  if ctx.isCancelled s.now then (.error .cancelled, s)
  else
    let (answer, now) := ctx.await s.now (ask s.history)
    (answer, ⟨now, query :: s.history⟩)

/-- Looks up the texts at a name. -/
def txt (ctx : Context) (r : Resolver) (name : String) :
    StateM Session (Except LookupError (List String)) :=
  ctx.resolve (.txt name) (r.txt · name)

/-- Looks up the addresses of a name. -/
def ip (ctx : Context) (r : Resolver) (name : String) :
    StateM Session (Except LookupError (List Ip.Address)) :=
  ctx.resolve (.ip name) (r.ip · name)

/-- Looks up the hosts that take mail for a name. -/
def mx (ctx : Context) (r : Resolver) (name : String) :
    StateM Session (Except LookupError (List Exchange)) :=
  ctx.resolve (.mx name) (r.mx · name)

end Context

end MailScreen.Dns
