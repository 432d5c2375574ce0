import MailScreen.Config.Settings
import MailScreen.Dkim.Sign
import MailScreen.Setting

/-!
# Reading settings

Model of how `Config` and its sections are read, field by field, with their defaults.

Each section is a record whose fields may be absent. A section refuses a value of the wrong type or
out of range; members that are no fields do not matter.

* `Config.ofSetting?` reads all sections. It does not ask whether the settings can be used.
-/

namespace MailScreen.Config

open Setting

/-- A number of 64 bits without a sign. -/
def count? : Setting → Option Nat := natural? 18446744073709551616

/-- A number of eight bits without a sign. -/
def small? : Setting → Option Nat := natural? 256

/-- A network. -/
def network? (s : Setting) : Option Ip.Network :=
  s.text?.bind Ip.Network.ofText?

/-- Reads the section on the server. -/
def Server.ofSetting? (s : Setting) : Option Server := do
  let f ← fields? ["hostname"] 0 s
  let d : Server := {}
  return { hostname := ← orElse text? d.hostname (f "hostname") }

/-- Reads the section on logging. -/
def Logging.ofSetting? (s : Setting) : Option Logging := do
  let f ← fields? ["level", "format"] 0 s
  let d : Logging := {}
  return {
    level := ← orElse text? d.level (f "level")
    format := ← orElse text? d.format (f "format") }

/-- Reads the section on lookups. -/
def Dns.ofSetting? (s : Setting) : Option Dns := do
  let f ← fields? ["timeout_ms", "attempts", "cache_size", "check_timeout_ms"] 0 s
  let d : Dns := {}
  return {
    timeout := ← orElse count? d.timeout (f "timeout_ms")
    attempts := ← orElse count? d.attempts (f "attempts")
    cacheSize := ← orElse count? d.cacheSize (f "cache_size")
    checkTimeout := ← orElse count? d.checkTimeout (f "check_timeout_ms") }

/-- Reads the section on the terms of records. -/
def Spf.ofSetting? (s : Setting) : Option Spf := do
  let f ← fields? ["max_dns_lookups"] 0 s
  let d : Spf := {}
  return { maxLookups := ← orElse count? d.maxLookups (f "max_dns_lookups") }

/-- The fields of the section on greylisting. -/
def Greylist.names : List String :=
  ["enabled", "min_wait_secs", "retry_window_secs", "pass_ttl_secs", "ipv4_prefix", "ipv6_prefix",
    "whitelist", "sweep_interval_secs"]

/-- Reads the section on greylisting. -/
def Greylist.ofSetting? (s : Setting) : Option Greylist := do
  let f ← fields? names 0 s
  let d : Greylist := {}
  return {
    enabled := ← orElse flag? d.enabled (f "enabled")
    minWait := ← orElse count? d.minWait (f "min_wait_secs")
    retryWindow := ← orElse count? d.retryWindow (f "retry_window_secs")
    passTtl := ← orElse count? d.passTtl (f "pass_ttl_secs")
    v4Length := ← orElse small? d.v4Length (f "ipv4_prefix")
    v6Length := ← orElse small? d.v6Length (f "ipv6_prefix")
    exempt := ← orElse (list? network?) d.exempt (f "whitelist")
    sweepInterval := ← orElse count? d.sweepInterval (f "sweep_interval_secs") }

/-- Reads the limits of a bucket; both must be there. -/
def limits? (s : Setting) : Option (RateLimit.Limits Float) := do
  let f ← fields? ["capacity", "refill_per_sec"] 2 s
  return ⟨← (← f "capacity").float?, ← (← f "refill_per_sec").float?⟩

/-- Reads the section on buckets. -/
def RateLimits.ofSetting? (s : Setting) : Option RateLimits := do
  let f ← fields? ["ip", "identity"] 0 s
  let d : RateLimits := {}
  return {
    client := ← orElse limits? d.client (f "ip")
    identity := ← orElse limits? d.identity (f "identity") }

/-- The fields of the points. -/
def Weights.names : List String :=
  ["spf_pass", "spf_fail", "spf_softfail", "spf_neutral", "spf_none", "spf_temperror",
    "spf_permerror", "dkim_pass", "dkim_fail", "dkim_none", "dkim_temperror", "dkim_permerror",
    "dmarc_pass", "dmarc_fail_none", "dmarc_fail_quarantine", "dmarc_fail_reject",
    "dmarc_temperror", "dmarc_permerror", "helo_suspicious", "missing_from_header"]

/-- The points in the order of their names. -/
def Weights.toList (w : Weights) : List Int :=
  [w.spfPass, w.spfFail, w.spfSoftfail, w.spfNeutral, w.spfNone, w.spfTemperror, w.spfPermerror,
    w.dkimPass, w.dkimFail, w.dkimNone, w.dkimTemperror, w.dkimPermerror, w.dmarcPass,
    w.dmarcFailNone, w.dmarcFailQuarantine, w.dmarcFailReject, w.dmarcTemperror, w.dmarcPermerror,
    w.heloSuspicious, w.missingAuthor]

/-- Reads points; those that are absent have the standard values. -/
def Weights.ofSetting? (s : Setting) : Option Weights := do
  let f ← fields? names 0 s
  let d := standard
  return {
    spfPass := ← orElse points? d.spfPass (f "spf_pass")
    spfFail := ← orElse points? d.spfFail (f "spf_fail")
    spfSoftfail := ← orElse points? d.spfSoftfail (f "spf_softfail")
    spfNeutral := ← orElse points? d.spfNeutral (f "spf_neutral")
    spfNone := ← orElse points? d.spfNone (f "spf_none")
    spfTemperror := ← orElse points? d.spfTemperror (f "spf_temperror")
    spfPermerror := ← orElse points? d.spfPermerror (f "spf_permerror")
    dkimPass := ← orElse points? d.dkimPass (f "dkim_pass")
    dkimFail := ← orElse points? d.dkimFail (f "dkim_fail")
    dkimNone := ← orElse points? d.dkimNone (f "dkim_none")
    dkimTemperror := ← orElse points? d.dkimTemperror (f "dkim_temperror")
    dkimPermerror := ← orElse points? d.dkimPermerror (f "dkim_permerror")
    dmarcPass := ← orElse points? d.dmarcPass (f "dmarc_pass")
    dmarcFailNone := ← orElse points? d.dmarcFailNone (f "dmarc_fail_none")
    dmarcFailQuarantine := ← orElse points? d.dmarcFailQuarantine (f "dmarc_fail_quarantine")
    dmarcFailReject := ← orElse points? d.dmarcFailReject (f "dmarc_fail_reject")
    dmarcTemperror := ← orElse points? d.dmarcTemperror (f "dmarc_temperror")
    dmarcPermerror := ← orElse points? d.dmarcPermerror (f "dmarc_permerror")
    heloSuspicious := ← orElse points? d.heloSuspicious (f "helo_suspicious")
    missingAuthor := ← orElse points? d.missingAuthor (f "missing_from_header") }

/-- Reads the section on scores. -/
def Scoring.ofSetting? (s : Setting) : Option Scoring := do
  let f ← fields? ["reject_threshold", "quarantine_threshold", "greylist_score",
    "rate_limit_score", "weights", "legacy_weights"] 0 s
  let d : Scoring := {}
  return {
    rejectAt := ← orElse points? d.rejectAt (f "reject_threshold")
    quarantineAt := ← orElse points? d.quarantineAt (f "quarantine_threshold")
    greylistScore := ← orElse points? d.greylistScore (f "greylist_score")
    rateLimitScore := ← orElse points? d.rateLimitScore (f "rate_limit_score")
    weights := ← orElse Weights.ofSetting? d.weights (f "weights")
    minimalWeights := ← orElse Weights.ofSetting? d.minimalWeights (f "legacy_weights") }

/-- Reads the section on signatures; the domain, the selector and the key must be there. -/
def Signing.ofSetting? (s : Setting) : Option Signing := do
  let f ← fields? ["domain", "selector", "private_key_path", "algorithm", "headers"] 3 s
  return {
    domain := ← (← f "domain").text?
    selector := ← (← f "selector").text?
    keyPath := ← (← f "private_key_path").text?
    algorithm := ← orElse text? "rsa-sha256" (f "algorithm")
    headers := ← orElse (list? text?) Dkim.defaultNames (f "headers") }

/-- Reads the section on signatures, which may be absent or null. -/
def signing? : Option Setting → Option (Option Signing)
  | none | some .null => some none
  | some s => (Signing.ofSetting? s).map some

/-- Reads all sections. -/
def ofSetting? (s : Setting) : Option Config := do
  let f ← fields? ["server", "logging", "dns", "spf", "greylist", "rate_limit", "scoring",
    "dkim_signing"] 8 s
  return {
    server := ← orElse Server.ofSetting? {} (f "server")
    logging := ← orElse Logging.ofSetting? {} (f "logging")
    dns := ← orElse Dns.ofSetting? {} (f "dns")
    spf := ← orElse Spf.ofSetting? {} (f "spf")
    greylist := ← orElse Greylist.ofSetting? {} (f "greylist")
    rateLimit := ← orElse RateLimits.ofSetting? {} (f "rate_limit")
    scoring := ← orElse Scoring.ofSetting? {} (f "scoring")
    signing := ← signing? (f "dkim_signing") }

end MailScreen.Config
