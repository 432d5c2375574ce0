import MailScreen.Ip.Network
import MailScreen.RateLimit.Limiter

/-!
# Settings

Model of `Config`, its sections and their defaults, and of `ScoreWeights.legacy`.

All that can be set from outside, section by section, with the values that hold if nothing is set.

* `Config` holds the sections.
* `Weights.standard` and `Weights.minimal` are the points for each finding. The minimal ones are for
  callers that pass on few header fields: what is absent because the caller never had it weighs
  nothing.
-/

namespace MailScreen

namespace Config

/-- How the program names itself. -/
structure Server where
  hostname : String := "localhost"
  deriving Repr, DecidableEq

/-- What is logged, and in which form. -/
structure Logging where
  level : String := "info"
  format : String := "text"
  deriving Repr, DecidableEq

/-- How long lookups and checks may take, in milliseconds, and what the resolver may do. -/
structure Dns where
  timeout : Nat := 2000
  attempts : Nat := 2
  cacheSize : Nat := 4096
  /-- For one check with all its lookups. -/
  checkTimeout : Nat := 10000
  deriving Repr, DecidableEq

/-- How many terms of the records of one check may ask for lookups. -/
structure Spf where
  maxLookups : Nat := 10
  deriving Repr, DecidableEq

/-- When unknown senders are deferred; times are in seconds. -/
structure Greylist where
  enabled : Bool := true
  /-- How long a sender has to wait before it tries again. -/
  minWait : Nat := 300
  /-- How long it may take to try again. -/
  retryWindow : Nat := 14400
  /-- How long a known sender stays known. -/
  passTtl : Nat := 3110400
  /-- How many leading bits of an IPv4 address make up a block. -/
  v4Length : Nat := 24
  /-- How many leading bits of an IPv6 address make up a block. -/
  v6Length : Nat := 64
  /-- Networks that are never deferred. -/
  exempt : List Ip.Network := []
  sweepInterval : Nat := 900
  deriving Repr, DecidableEq

/-- The bucket of a client address if nothing is set. -/
def clientLimits : RateLimit.Limits Float := ⟨60, 1⟩

/-- The bucket of an identity if nothing is set. -/
def identityLimits : RateLimit.Limits Float := ⟨200, 2⟩

/-- The buckets of client addresses and of identities. -/
structure RateLimits where
  client : RateLimit.Limits Float := clientLimits
  identity : RateLimit.Limits Float := identityLimits
  deriving Repr

/-- The points that each finding adds to a score. -/
structure Weights where
  spfPass : Int := 0
  spfFail : Int := 20
  spfSoftfail : Int := 10
  spfNeutral : Int := 0
  spfNone : Int := 0
  spfTemperror : Int := 5
  spfPermerror : Int := 5
  dkimPass : Int := 0
  dkimFail : Int := 15
  dkimNone : Int := 0
  dkimTemperror : Int := 5
  dkimPermerror : Int := 5
  dmarcPass : Int := 0
  dmarcFailNone : Int := 5
  dmarcFailQuarantine : Int := 30
  dmarcFailReject : Int := 50
  dmarcTemperror : Int := 3
  dmarcPermerror : Int := 3
  heloSuspicious : Int := 5
  missingAuthor : Int := 10
  deriving Repr, DecidableEq

/-- The points if nothing is set. -/
def Weights.standard : Weights := {}

/-- The points for callers that pass on few header fields. -/
def Weights.minimal : Weights where
  dkimTemperror := 0
  dkimPermerror := 0
  spfTemperror := 0
  dmarcTemperror := 0
  missingAuthor := 0

/-- How findings become a decision. -/
structure Scoring where
  /-- The score from which on a message is rejected. -/
  rejectAt : Int := 70
  /-- The score from which on a message is quarantined. -/
  quarantineAt : Int := 40
  /-- The score that goes with a deferral. -/
  greylistScore : Int := 0
  /-- The score that goes with a rejection for too many attempts. -/
  rateLimitScore : Int := 100
  weights : Weights := .standard
  minimalWeights : Weights := .minimal
  deriving Repr, DecidableEq

/-- How outgoing messages are signed. -/
structure Signing where
  domain : String
  selector : String
  keyPath : String
  algorithm : String
  /-- The names of the fields to sign. -/
  headers : List String
  deriving Repr, DecidableEq

end Config

/-- All settings. -/
structure Config where
  server : Config.Server := {}
  logging : Config.Logging := {}
  dns : Config.Dns := {}
  spf : Config.Spf := {}
  greylist : Config.Greylist := {}
  rateLimit : Config.RateLimits := {}
  scoring : Config.Scoring := {}
  signing : Option Config.Signing := none
  deriving Repr

end MailScreen
