import MailScreen.Config.Settings
import MailScreen.Request
import MailScreen.Text.Lowercase
import MailScreen.Text.Utf8
import MailScreen.Time

/-!
# Greylisting

Model of `GreylistStore` (`check_at`, `exemption`, `network_block`, `prune_at`), `GreylistKey` and
`GreylistEntry`.

The first attempt of an unknown sender is deferred. Who tries again, neither too early nor too late,
becomes known, and stays known as long as it goes on to send.

* A sender is a `tuple`: the block of the client's address and both addresses of the envelope. The
  store keeps it by its hash, so the operations take the hash function.
* `attempt` is one attempt of a tuple, as a function on its entry.
* `Store.check` is one attempt of a request, which may be exempt; `Store.prune` drops what has
  expired.
-/

namespace MailScreen.Greylist

open MailScreen.Text MailScreen.Time

/-- What becomes of an attempt. -/
inductive Ruling where
  | defer
  | pass
  deriving Repr, DecidableEq

/-- The word for a ruling. -/
def Ruling.name : Ruling → String
  | defer => "defer"
  | pass => "pass"

/-- What is remembered of a tuple. -/
structure Entry where
  firstSeen : Int
  lastSeen : Int
  /-- Whether the tuple is known. -/
  passed : Bool
  expiresAt : Int
  deriving Repr, DecidableEq

/-- The rules, with all spans in nanoseconds. -/
structure Policy where
  enabled : Bool
  minWait : Nat
  retryWindow : Nat
  passTtl : Nat
  v4Length : Nat
  v6Length : Nat
  exempt : List Ip.Network
  deriving Repr, DecidableEq

namespace Policy

/-- A span of some seconds, but no longer than can be configured. -/
def bounded (secs : Nat) : Nat :=
  seconds (min secs maxSeconds)

/-- The rules that the settings ask for. -/
def ofSettings (s : Config.Greylist) : Policy where
  enabled := s.enabled
  minWait := bounded s.minWait
  retryWindow := bounded s.retryWindow
  passTtl := bounded s.passTtl
  v4Length := s.v4Length
  v6Length := s.v6Length
  exempt := s.exempt

/-- Whether a request passes without further ado: if the rules are off, if the client has logged in,
or if its address lies in an exempt network. -/
def exempts (p : Policy) (r : Request) : Bool :=
  !p.enabled || r.identity.isSome || p.exempt.any (·.contains r.client)

/-- How many leading bits of an address make up its block. -/
def blockLength (p : Policy) : Ip.Address → Nat
  | .v4 _ => p.v4Length
  | .v6 _ => p.v6Length

/-- The block of a client address; an address that is shorter than a block stands for itself. -/
def block (p : Policy) (client : Ip.Address) : String :=
  let a := client.canonical
  match Ip.Network.ofAddress? a (p.blockLength a) with
  | some net => net.truncated.toText
  | none => a.toText

end Policy

/-- An address of the envelope, without regard to case. -/
def folded (m : Mail.Mailbox) : String :=
  lowerFullString m.toText

/-- What identifies a sender: a block and the addresses of the envelope, with a zero byte between
two of them; the null sender is empty. -/
def tuple (block : String) (sender : Option Mail.Mailbox) (recipient : Mail.Mailbox) :
    List UInt8 :=
  Utf8.encodeString block ++ 0 :: Utf8.encodeString (sender.elim "" folded) ++
    0 :: Utf8.encodeString (folded recipient)

/-- The hash of the tuple of a request. -/
def Policy.key (p : Policy) (hash : List UInt8 → List UInt8) (r : Request) : List UInt8 :=
  hash (tuple (p.block r.client) r.sender r.recipient)

/-- The entry of a tuple that begins at an instant. -/
def Entry.fresh (p : Policy) (now : Int) : Entry :=
  ⟨now, now, false, now + p.retryWindow⟩

/-- The entry after an attempt that makes, or finds, its tuple known. -/
def Entry.known (p : Policy) (e : Entry) (now : Int) : Entry :=
  { e with lastSeen := now, passed := true, expiresAt := now + p.passTtl }

/-- One attempt of a tuple. It begins anew if it has no entry, if its entry has expired, or if it
comes before the end of the wait. -/
def attempt (p : Policy) (entry : Option Entry) (now : Int) : Ruling × Entry :=
  match entry with
  | none => (.defer, .fresh p now)
  | some e =>
    if e.expiresAt < now then (.defer, .fresh p now)
    else if e.passed then (.pass, e.known p now)
    else if elapsed e.firstSeen now < p.minWait then (.defer, .fresh p now)
    else (.pass, e.known p now)

/-- What becomes of a request, and whether the attempt was recorded. -/
structure Finding where
  ruling : Ruling
  recorded : Bool
  deriving Repr, DecidableEq

/-- The rules, and what is remembered, by the hash of the tuple. -/
structure Store where
  policy : Policy
  entries : Table (List UInt8) Entry
  deriving Repr

namespace Store

/-- The store that remembers nothing. -/
def fresh (policy : Policy) : Store :=
  ⟨policy, .empty⟩

/-- One attempt of a request. -/
def check (s : Store) (hash : List UInt8 → List UInt8) (r : Request) (now : Int) :
    Finding × Store :=
  if s.policy.exempts r then (⟨.pass, false⟩, s)
  else
    let key := s.policy.key hash r
    let (ruling, entry) := attempt s.policy (s.entries.find? key) now
    (⟨ruling, true⟩, { s with entries := s.entries.put key entry })

/-- Drops the entries that have expired at an instant, and says how many there were. -/
def prune (s : Store) (now : Int) : Nat × Store :=
  let kept := s.entries.choose fun _ e => if e.expiresAt < now then none else some e
  (s.entries.size - kept.size, { s with entries := kept })

end Store

end MailScreen.Greylist
