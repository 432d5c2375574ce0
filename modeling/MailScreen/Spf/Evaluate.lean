import MailScreen.Dns.Context
import MailScreen.Mail.Mailbox
import MailScreen.Spf.Macro
import MailScreen.Spf.Record

/-!
# Evaluating a policy

Model of `SpfVerifier` (`check`, `verify`, `evaluate`, `matches`), after RFC 7208.

A policy is evaluated from left to right until a mechanism matches. Policies can include others and
redirect to them, so two things are kept for the whole check: how many terms that cause lookups
were met, and the chain of the domains whose policies are being evaluated.

* `State` holds both, and the session of lookups.
* `evaluate` evaluates the policy of a domain. Its depth bounds the chain; as every step down is
  counted first, a depth of the limit and one more is never used up.
* `check` evaluates for a client and a sender, `verify` for a mail transaction.
-/

namespace MailScreen.Spf

open MailScreen.Text

/-- What stays the same during a check. -/
structure Check where
  resolver : Dns.Resolver
  context : Dns.Context
  /-- How many terms may cause lookups. -/
  limit : Nat
  /-- The client; never an IPv4-mapped address. -/
  client : Ip.Address
  sender : String
  senderDomain : String
  helo : String

/-- What changes during a check. -/
structure State where
  session : Dns.Session
  /-- How many terms that cause lookups were met. -/
  counted : Nat
  /-- The domains whose policies are being evaluated, innermost first. -/
  chain : List String
  deriving Repr, DecidableEq

/-- A part of an evaluation, which may end the whole of it with an outcome. -/
abbrev Eval := ExceptT Outcome (StateM State)

/-- The most hosts that one `mx` may have. -/
def maxExchanges : Nat := 10

namespace Check

/-- What macros stand for in the policy of a domain. -/
def facts (c : Check) (domain : String) : Facts :=
  ⟨c.client, c.sender, c.senderDomain, c.helo, domain⟩

/-- Counts a term that causes lookups, if the limit allows one more. -/
def count (c : Check) : Eval Unit := fun s =>
  let s := { s with counted := s.counted + 1 }
  if c.limit < s.counted then (.error .permError, s) else (.ok (), s)

/-- Expands a name in the policy of a domain. -/
def expand (c : Check) (domain spec : String) : Eval String :=
  match (c.facts domain).expand? spec with
  | some name => pure name
  | none => throw .permError

/-- The domain that a mechanism is about: the one it names, or else the policy's own. -/
def target (c : Check) (domain : String) : Option String → Eval String
  | some spec => c.expand domain spec
  | none => pure domain

/-- The answer of a lookup; a name without records has an empty answer, and any other error ends
the evaluation. -/
def answer {α : Type} : Except Dns.LookupError (List α) → Except Outcome (List α)
  | .ok values => .ok values
  | .error .notFound => .ok []
  | .error _ => .error .tempError

/-- Does a lookup and takes its answer. -/
def lookup {α : Type} (action : StateM Dns.Session (Except Dns.LookupError (List α))) :
    Eval (List α) := fun s =>
  let (a, session) := action s.session
  (answer a, { s with session })

/-- The addresses of a name. -/
def addresses (c : Check) (name : String) : Eval (List Ip.Address) :=
  lookup (c.context.ip c.resolver name)

/-- The hosts that take mail for a name. -/
def exchanges (c : Check) (name : String) : Eval (List Dns.Exchange) :=
  lookup (c.context.mx c.resolver name)

/-- The number of leading bits for an address of this family. -/
def lengthFor (lengths : Lengths) : Ip.Address → Nat
  | .v4 _ => lengths.v4
  | .v6 _ => lengths.v6

/-- Whether the client is of the same family as an address and agrees with it as far as the length
for that family says. -/
def isNear (client : Ip.Address) (lengths : Lengths) (a : Ip.Address) : Bool :=
  client.agree (lengthFor lengths a) a

/-- Whether an address of one of the hosts is near the client. -/
def anyHostNear (c : Check) (lengths : Lengths) : List Dns.Exchange → Eval Bool
  | [] => pure false
  | x :: rest => do
    let found ← c.addresses x.host
    if found.any (isNear c.client lengths) then pure true else c.anyHostNear lengths rest

/-- What the outcome of an included policy means for the mechanism that includes it. -/
def includeMatch : Outcome → Eval Bool
  | .pass => pure true
  | .fail | .softFail | .neutral => pure false
  | .tempError => throw .tempError
  | .permError | .none => throw .permError

/-- Whether a mechanism in the policy of a domain matches; `recur` evaluates other policies. -/
def isMatch (c : Check) (recur : String → StateM State Outcome) (domain : String) :
    Mechanism → Eval Bool
  | .all => pure true
  | .ip4 net | .ip6 net => pure (net.contains c.client)
  | .address spec lengths => do
    c.count
    let name ← c.target domain spec
    let found ← c.addresses name
    return found.any (isNear c.client lengths)
  | .exchange spec lengths => do
    c.count
    let name ← c.target domain spec
    let hosts ← c.exchanges name
    if maxExchanges < hosts.length then throw .permError
    c.anyHostNear lengths (hosts.mergeSort fun x y => x.preference ≤ y.preference)
  | .included spec => do
    c.count
    let name ← c.expand domain spec
    includeMatch (← recur name)
  | .pointer _ => do
    c.count
    return false
  | .existing spec => do
    c.count
    let name ← c.expand domain spec
    let found ← c.addresses name
    return ! found.isEmpty

/-- The qualifier of the first directive that matches. -/
def firstMatch (c : Check) (recur : String → StateM State Outcome) (domain : String) :
    List Directive → Eval (Option Qualifier)
  | [] => pure none
  | d :: rest => do
    if ← c.isMatch recur domain d.mechanism then pure (some d.qualifier)
    else c.firstMatch recur domain rest

/-- The outcome of a redirect; a domain without a policy is an error there. -/
def redirectOutcome : Outcome → Outcome
  | .none => .permError
  | o => o

/-- Evaluates a policy of a domain. -/
def evaluateRecord (c : Check) (recur : String → StateM State Outcome) (domain : String)
    (record : Record) : Eval Outcome := do
  match ← c.firstMatch recur domain record.directives with
  | some q => return q.outcome
  | none =>
    match record.redirect with
    | none => return .neutral
    | some spec =>
      c.count
      let name ← c.expand domain spec
      return redirectOutcome (← recur name)

/-- The text of the one policy of a domain; two of them are an error. -/
def policyText (c : Check) (domain : String) : Eval (Option String) := do
  let texts ← lookup (c.context.txt c.resolver domain)
  match texts.filter isRecord with
  | [] => return none
  | [text] => return some text
  | _ => throw .permError

/-- The outcome of an evaluation, whether it came to its end or was ended early. -/
def outcome (e : Eval Outcome) : StateM State Outcome := do
  match ← e.run with
  | .ok o => return o
  | .error o => return o

/-- Puts a domain on the chain while its policy is evaluated. -/
def within (domain : String) (action : StateM State Outcome) : StateM State Outcome := do
  modify fun s => { s with chain := domain :: s.chain }
  let o ← action
  modify fun s => { s with chain := s.chain.tail }
  return o

/-- Evaluates the policy of a domain, if it has one and is not on the chain already. -/
def evaluateDomain (c : Check) (recur : String → StateM State Outcome) (domain : String) :
    Eval Outcome := do
  if (← get).chain.contains domain then throw .permError
  match ← c.policyText domain with
  | none => return .none
  | some text =>
    match Record.ofText text with
    | .error _ => throw .permError
    | .ok record => return ← within domain (outcome (c.evaluateRecord recur domain record))

/-- Evaluates the policy of a domain and of those it leads to, down to a depth. -/
def evaluate (c : Check) : Nat → String → StateM State Outcome
  | 0, _ => return .permError
  | depth + 1, domain => outcome (c.evaluateDomain (c.evaluate depth) domain)

/-- Evaluates the policy of a domain from the start. -/
def run (c : Check) (domain : String) : StateM Dns.Session Outcome := fun session =>
  let (o, s) := c.evaluate (c.limit + 1) domain ⟨session, 0, []⟩
  (o, s.session)

end Check

/-- The local part and the domain of a sender; without a local part it is `postmaster`. -/
def senderParts (sender domain : String) : String × String :=
  match cutLast (· == '@') sender.toList with
  | some (name, d) =>
    (if name.isEmpty then "postmaster" else String.ofList name,
      DomainName.normalize (String.ofList d))
  | none => ("postmaster", domain)

/-- What the policy of a domain says about a client. -/
def check (r : Dns.Resolver) (ctx : Dns.Context) (limit : Nat) (client : Ip.Address)
    (domain sender helo : String) : StateM Dns.Session Outcome :=
  let domain := DomainName.normalize domain
  let (name, senderDomain) := senderParts sender domain
  Check.run ⟨r, ctx, limit, client.canonical, name, senderDomain, DomainName.normalize helo⟩ domain

/-- The name and domain that are checked in a mail transaction; the null sender stands for the
postmaster of the host that the client says it is. -/
def identity (sender : Option Mail.Mailbox) (helo : String) : String × String :=
  match sender with
  | some m => (m.name, DomainName.normalize m.domain)
  | none => ("postmaster", DomainName.normalize helo)

/-- What the sender's policy says about the client of a mail transaction, and the domain whose
policy that is; a domain without a dot has none. -/
def verify (r : Dns.Resolver) (ctx : Dns.Context) (limit : Nat) (sender : Option Mail.Mailbox)
    (helo : String) (client : Ip.Address) : StateM Dns.Session (Outcome × Option String) := do
  let (name, domain) := identity sender helo
  if domain.isEmpty || ! domain.toList.contains '.' then return (.none, none)
  let o ← check r ctx limit client domain (name ++ "@" ++ domain) (DomainName.normalize helo)
  return (o, some domain)

end MailScreen.Spf
