import MailScreen.Config.Settings
import MailScreen.Error
import MailScreen.Time

/-!
# Settings that can be used

Model of `Config.validate`.

`Config.fault?` is the first thing wrong with settings, in a fixed order: the thresholds, the
buckets, the lengths of greylist blocks, the lengths of time, and last the wait that would outlast
its window. `Config.check` refuses settings with a fault.
-/

namespace MailScreen.Config

/-- What is wrong with settings. -/
inductive Fault where
  | thresholds (quarantineAt rejectAt : Int)
  | bucket (name : String)
  | blockLength
  | duration (name : String)
  | waitOutlastsWindow
  deriving Repr, DecidableEq

namespace Fault

/-- The wording. -/
def text : Fault → String
  | thresholds q r =>
    "quarantine_threshold (" ++ toString q ++ ") exceeds reject_threshold (" ++ toString r ++ ")"
  | bucket name => "rate_limit." ++ name ++ " requires positive capacity and refill_per_sec"
  | blockLength => "greylist prefix length out of range"
  | duration name =>
    name ++ " exceeds the maximum of " ++ toString Time.maxSeconds ++ " seconds"
  | waitOutlastsWindow => "greylist min_wait_secs exceeds retry_window_secs"

end Fault

/-- Whether an amount is a number above zero. -/
def isPositive (x : Float) : Bool :=
  x.isFinite && 0 < x

/-- Whether a bucket can hold and gain tokens. -/
def isUsable (limits : RateLimit.Limits Float) : Bool :=
  isPositive limits.capacity && isPositive limits.refill

/-- All lengths of time that can be set, in seconds. -/
def durations (c : Config) : List (String × Nat) :=
  [("greylist.min_wait_secs", c.greylist.minWait),
    ("greylist.retry_window_secs", c.greylist.retryWindow),
    ("greylist.pass_ttl_secs", c.greylist.passTtl),
    ("greylist.sweep_interval_secs", c.greylist.sweepInterval),
    ("dns.timeout_ms", c.dns.timeout / 1000),
    ("dns.check_timeout_ms", c.dns.checkTimeout / 1000)]

/-- The first length of time that is too long. -/
def overlong? (c : Config) : Option Fault :=
  (c.durations.find? fun (_, seconds) => Time.maxSeconds < seconds).map fun (name, _) =>
    .duration name

/-- The first thing that is wrong. -/
def fault? (c : Config) : Option Fault :=
  if c.scoring.rejectAt < c.scoring.quarantineAt then
    some (.thresholds c.scoring.quarantineAt c.scoring.rejectAt)
  else if !isUsable c.rateLimit.client then some (.bucket "ip")
  else if !isUsable c.rateLimit.identity then some (.bucket "identity")
  else if 32 < c.greylist.v4Length ∨ 128 < c.greylist.v6Length then some .blockLength
  else
    match c.overlong? with
    | some f => some f
    | none =>
      if c.greylist.retryWindow < c.greylist.minWait then some .waitOutlastsWindow else none

/-- Refuses settings that cannot be used. -/
def check (c : Config) : Except Error Unit :=
  match c.fault? with
  | some f => .error ⟨.configuration, f.text⟩
  | none => .ok ()

theorem check_eq_ok_iff {c : Config} : c.check = .ok () ↔ c.fault? = none := by
  unfold check
  cases c.fault? <;> simp

end MailScreen.Config
