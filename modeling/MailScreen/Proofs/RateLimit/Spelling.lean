import MailScreen.Engine
import MailScreen.Proofs.Ip.Mapped

/-!
# Which messages share a bucket

A limiter tells clients apart by their addresses as they are, and does not take the mapped form of
an IPv4 address for the address. So what the gate makes of a series of messages depends on which of
them come from equal addresses, and on nothing else about these addresses.

* `Key.Respelt` pairs the keys before and after the addresses of clients are replaced,
  `Limiter.Respells` the limiters that hold the same under such keys.
* `Limiter.Respells.consume`, `Limiter.Respells.admission`: an attempt, and the attempts for a
  message, go the same way with both, and leave them so.
* `contributions_respelt`: a replacement that keeps equal addresses equal and different ones
  different cannot be seen.
* `not_contributions_respelt`: if only some of a client's messages come in under its mapped address,
  this can be seen, as it has two buckets then.
-/

namespace MailScreen

namespace RateLimit

/-- Addresses of clients, each with one that replaces it. -/
abbrev Respelling := List (Ip.Address × Ip.Address)

/-- Addresses are equal after the replacement if and only if they were before. -/
def Respelling.IsFaithful (s : Respelling) : Prop :=
  ∀ x ∈ s, ∀ y ∈ s, (x.1 = y.1 ↔ x.2 = y.2)

/-- The keys of buckets before and after the replacement. -/
inductive Key.Respelt (s : Respelling) : Key → Key → Prop
  | client {a b : Ip.Address} (h : (a, b) ∈ s) : Respelt s (.client a) (.client b)
  | identity (name : String) : Respelt s (.identity name) (.identity name)

variable {s : Respelling} {k k' j j' : Key}

theorem Key.Respelt.eq_iff (hs : s.IsFaithful) (hk : Respelt s k k') (hj : Respelt s j j') :
    k = j ↔ k' = j' := by
  cases hk with
  | client hk =>
    cases hj with
    | client hj =>
      rw [Key.client.injEq, Key.client.injEq]
      exact hs _ hk _ hj
    | identity => exact iff_of_false nofun nofun
  | identity =>
    cases hj with
    | client => exact iff_of_false nofun nofun
    | identity => exact Iff.rfl

/-- The limits are the same, and so are the buckets under the keys before and after the
replacement. -/
structure Limiter.Respells {α : Type} (s : Respelling) (l l' : Limiter α) : Prop where
  client : l.client = l'.client
  identity : l.identity = l'.identity
  find? {k k' : Key} : k.Respelt s k' → l.buckets.find? k = l'.buckets.find? k'

variable {α : Type}

namespace Limiter

variable {l l' : Limiter α}

theorem respells_fresh (s : Respelling) (client identity : Limits α) :
    (fresh client identity).Respells s (fresh client identity) :=
  ⟨rfl, rfl, fun _ => rfl⟩

theorem Respells.limits_eq (h : l.Respells s l') (hk : k.Respelt s k') :
    l.limits k = l'.limits k' := by
  cases hk with
  | client => exact h.client
  | identity => exact h.identity

theorem Respells.bucket_eq (h : l.Respells s l') (hk : k.Respelt s k') (now : Int) :
    l.bucket k now = l'.bucket k' now := by
  rw [bucket, bucket, h.find? hk, h.limits_eq hk]

/-- What is put under such keys is found under such keys. -/
theorem Respells.put (h : l.Respells s l') (hs : s.IsFaithful) (hk : k.Respelt s k')
    (b : Bucket α) : Respells s { l with buckets := l.buckets.put k b }
      { l' with buckets := l'.buckets.put k' b } where
  client := h.client
  identity := h.identity
  find? {j j'} hj := by
    rw [Table.find?_put, Table.find?_put, h.find? hj]
    simp only [hj.eq_iff hs hk]

variable [Add α] [Sub α] [Mul α] [LT α] [LE α] [DecidableLT α] [DecidableLE α] [Amount α]

/-- **An attempt goes the same way** with two such limiters, under such keys. -/
theorem Respells.consume (h : l.Respells s l') (hs : s.IsFaithful) (hk : k.Respelt s k') (cost : α)
    (now : Int) : (l.consume k cost now).1 = (l'.consume k' cost now).1 ∧
      (l.consume k cost now).2.Respells s (l'.consume k' cost now).2 := by
  unfold Limiter.consume
  simp only [h.bucket_eq hk now, h.limits_eq hk]
  cases isCost cost with
  | false => exact ⟨rfl, h⟩
  | true => exact ⟨rfl, h.put hs hk _⟩

/-- **A message is admitted by both or by neither** if it comes from the address before and after
the replacement. -/
theorem Respells.admission (h : l.Respells s l') (hs : s.IsFaithful) {r : Request}
    {a : Ip.Address} (ha : (r.client, a) ∈ s) (now : Int) :
    let admission := Limiter.admit l r now
    let admission' := Limiter.admit l' (r.fromClient a) now
    admission.1 = admission'.1 ∧ admission.2.Respells s admission'.2 := by
  obtain ⟨houtcome, hafter⟩ := h.consume hs (.client ha) Amount.one now
  unfold Limiter.admit Request.fromClient
  simp only [← houtcome]
  cases (l.consume (.client r.client) Amount.one now).1.allowed with
  | false => exact ⟨rfl, hafter⟩
  | true =>
    cases r.identity with
    | none => exact ⟨rfl, hafter⟩
    | some name =>
      obtain ⟨houtcome', hafter'⟩ :=
        hafter.consume hs (.identity (Text.lowerFullString name)) Amount.one now
      simp only [houtcome']
      exact ⟨rfl, hafter'⟩

end Limiter

end RateLimit

namespace Engine

open RateLimit

/-- One evaluation of a contributor: of a task, after some findings, in a session that tells the
time. -/
structure Turn where
  task : Task
  findings : Findings
  session : Dns.Session

namespace Turn

/-- The address of the client. -/
def client (t : Turn) : Ip.Address := t.task.request.client

/-- The same evaluation, of the request from another address. -/
def fromClient (t : Turn) (a : Ip.Address) : Turn :=
  { t with task := { t.task with request := t.task.request.fromClient a } }

end Turn

/-- What a contributor adds in some turns, if it is alone in changing the stores. -/
def contributions (c : Contributor) (stores : Stores) : List Turn → List Contribution
  | [] => []
  | t :: turns =>
    let (added, stores) := c.evaluate t.task t.findings { stores with session := t.session }
    added :: contributions c stores turns

variable {s : Respelling}

theorem contributions_of_respells (hs : s.IsFaithful) (score : Int)
    {turns : List (Turn × Ip.Address)} {stores stores' : Stores}
    (h : stores.limiter.Respells s stores'.limiter)
    (hturns : ∀ x ∈ turns, (x.1.client, x.2) ∈ s) :
    contributions (rateLimitGate score) stores (turns.map (·.1)) =
      contributions (rateLimitGate score) stores' (turns.map fun x => x.1.fromClient x.2) := by
  induction turns generalizing stores stores' with
  | nil => rfl
  | cons x turns ih =>
    obtain ⟨hfirst, hrest⟩ := List.forall_mem_cons.mp hturns
    obtain ⟨hrefusal, hafter⟩ := h.admission hs hfirst x.1.session.now
    refine List.cons_eq_cons.mpr ⟨?_, ih hafter hrest⟩
    unfold rateLimitGate
    simp only
    rw [hrefusal]
    rfl

/-- **Messages share a bucket just if their clients' addresses are equal.** Take any evaluations of
the rate-limit gate of an engine that has seen nothing yet, and let their requests come from other
addresses, so that those which had one address still have one, and those which had different
addresses still do: the gate makes the same of each of them. -/
theorem contributions_respelt (c : Config) (start : Int) (score : Int)
    (turns : List (Turn × Ip.Address))
    (hturns : ∀ x ∈ turns, ∀ y ∈ turns, (x.1.client = y.1.client ↔ x.2 = y.2)) :
    contributions (rateLimitGate score) (State.fresh c start).stores
        (turns.map fun x => x.1.fromClient x.2) =
      contributions (rateLimitGate score) (State.fresh c start).stores (turns.map (·.1)) := by
  let s : Respelling := turns.map fun x => (x.1.client, x.2)
  have hs : s.IsFaithful := by
    intro x hx y hy
    obtain ⟨t, ht, rfl⟩ := List.mem_map.mp hx
    obtain ⟨u, hu, rfl⟩ := List.mem_map.mp hy
    exact hturns t ht u hu
  have hfresh : (State.fresh c start).stores.limiter.Respells s
      (State.fresh c start).stores.limiter := Limiter.respells_fresh s _ _
  have hmem : ∀ x ∈ turns, (x.1.client, x.2) ∈ s := fun x hx => List.mem_map.mpr ⟨x, hx, rfl⟩
  exact (contributions_of_respells hs score hfresh hmem).symm

/-- One client comes in under its mapped address throughout, the other one does not. -/
theorem contributions_respelt_throughout :
    let c : Config := { rateLimit := { client := ⟨1, 1⟩ } }
    let client : Ip.Address := .v4 0xCB007105
    let mapped : Ip.Address := .v6 (Ip.Address.mapping 0xCB007105)
    let other : Ip.Address := .v4 0xCB007106
    let turn (a : Ip.Address) : Turn :=
      ⟨⟨⟨a, "mx.b.c", some ⟨"a", "b.c"⟩, ⟨"u", "d.e"⟩, none, ⟨⟨[]⟩, []⟩⟩, ⟨0, none⟩, .standard,
        .standard, 0⟩, .nothing, ⟨0, []⟩⟩
    let turns := [(turn client, mapped), (turn other, other), (turn client, mapped)]
    let refused := Contribution.hard .reject 100 "rate limit exceeded for client IP"
    (∀ x ∈ turns, ∀ y ∈ turns, (x.1.client = y.1.client ↔ x.2 = y.2)) ∧
    contributions (rateLimitGate 100) (State.fresh c 0).stores (turns.map (·.1)) =
      [.none, .none, refused] ∧
    contributions (rateLimitGate 100) (State.fresh c 0).stores
        (turns.map fun x => x.1.fromClient x.2) =
      contributions (rateLimitGate 100) (State.fresh c 0).stores (turns.map (·.1)) := by
  intro c client mapped other turn turns refused
  have hturns : ∀ x ∈ turns, ∀ y ∈ turns, (x.1.client = y.1.client ↔ x.2 = y.2) := by
    simp only [turns, List.forall_mem_cons]
    decide +kernel
  refine ⟨hturns, ?_, contributions_respelt c 0 100 turns hturns⟩
  decide +kernel

/-- A client whose bucket is empty is admitted under its mapped address. -/
theorem not_contributions_respelt :
    let c : Config := { rateLimit := { client := ⟨1, 1⟩ } }
    let client : Ip.Address := .v4 0xCB007105
    let mapped : Ip.Address := .v6 (Ip.Address.mapping 0xCB007105)
    let turn (a : Ip.Address) : Turn :=
      ⟨⟨⟨a, "mx.b.c", some ⟨"a", "b.c"⟩, ⟨"u", "d.e"⟩, none, ⟨⟨[]⟩, []⟩⟩, ⟨0, none⟩, .standard,
        .standard, 0⟩, .nothing, ⟨0, []⟩⟩
    let refused := Contribution.hard .reject 100 "rate limit exceeded for client IP"
    contributions (rateLimitGate 100) (State.fresh c 0).stores [turn client, turn client] =
      [.none, refused] ∧
    contributions (rateLimitGate 100) (State.fresh c 0).stores
        [turn client, (turn client).fromClient mapped] = [.none, .none] := by
  decide +kernel

end Engine

end MailScreen
