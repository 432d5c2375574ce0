import MailScreen.Proofs.Greylist.History
import MailScreen.Proofs.Ip.Mapped

/-!
# IPv4 clients under their mapped addresses

A store takes the mapped form of an IPv4 client for the client itself when it works out the block,
but not when it looks through the networks that are exempt: there the two are different addresses.
So it treats both forms alike just where those networks do.

* `key_mapping`: both forms are recorded under one key.
* `check_eq_iff`: of two requests with one key the same becomes, if either both are exempt or
  neither is. `check_mapping_iff` says so of the two forms of a client.
* `not_check_mapping`: a network of either family can tell the two forms apart.
-/

namespace MailScreen.Greylist

open Ip.Address (mapping)

variable {p : Policy} {hash : List UInt8 → List UInt8} {r r' : Request} {now : Int}

/-- Both forms of a client lie in one block. -/
theorem block_mapping (p : Policy) (bits : BitVec 32) :
    p.block (.v6 (mapping bits)) = p.block (.v4 bits) := by
  unfold Policy.block
  rw [Ip.Address.canonical_mapping]
  rfl

/-- **Both forms of a client are recorded under one key.** -/
theorem key_mapping (p : Policy) (hash : List UInt8 → List UInt8) (r : Request)
    (bits : BitVec 32) :
    p.key hash (r.fromClient (.v6 (mapping bits))) = p.key hash (r.fromClient (.v4 bits)) :=
  congrArg (fun block => hash (tuple block r.sender r.recipient)) (block_mapping p bits)

/-- Whether an address lies in an exempt network. -/
def Policy.Exempts (p : Policy) (a : Ip.Address) : Prop :=
  ∃ net ∈ p.exempt, net.contains a = true

theorem exempts_iff : p.exempts r = true ↔
    p.enabled = false ∨ r.identity.isSome = true ∨ p.Exempts r.client := by
  unfold Policy.exempts Policy.Exempts
  rw [Bool.or_eq_true_iff, Bool.or_eq_true_iff, or_assoc, List.any_eq_true, Bool.not_eq_true']

namespace Store

/-- **Requests with one key are treated alike** if either both are exempt or neither is; and only
then, as what is exempt is not recorded. -/
theorem check_eq_iff {s : Store} (hkey : s.policy.key hash r = s.policy.key hash r') :
    s.check hash r now = s.check hash r' now ↔ s.policy.exempts r = s.policy.exempts r' := by
  unfold check
  rw [hkey]
  cases s.policy.exempts r <;> cases s.policy.exempts r' <;> simp

/-- **A client is treated alike under both forms** of its address, with the same ruling, recorded or
not, and the same entries after it, just where the exempt networks make no difference between them.
They cannot if the rules are off or the client has logged in. -/
theorem check_mapping_iff (s : Store) (hash : List UInt8 → List UInt8) (r : Request)
    (bits : BitVec 32) (now : Int) :
    s.check hash (r.fromClient (.v6 (mapping bits))) now =
        s.check hash (r.fromClient (.v4 bits)) now ↔
      (s.policy.enabled = true → r.identity = none →
        (s.policy.Exempts (.v6 (mapping bits)) ↔ s.policy.Exempts (.v4 bits))) := by
  rw [check_eq_iff (key_mapping s.policy hash r bits), Bool.eq_iff_iff, exempts_iff, exempts_iff]
  show (s.policy.enabled = false ∨ r.identity.isSome = true ∨
    s.policy.Exempts (.v6 (mapping bits)) ↔
    s.policy.enabled = false ∨ r.identity.isSome = true ∨ s.policy.Exempts (.v4 bits)) ↔ _
  cases s.policy.enabled <;> cases r.identity <;> simp

/-- A client in an exempt network is deferred under its mapped address; and one whose mapped address
lies in an exempt network, under its own. -/
theorem not_check_mapping :
    let network : Ip.Network := ⟨.v4 0xCB007100, 24, by decide⟩
    let mapped : Ip.Network := ⟨.v6 (mapping 0xCB007100), 120, by decide⟩
    let store (net : Ip.Network) := fresh (.ofSettings { exempt := [net] })
    let request : Request :=
      ⟨.v4 0xCB007105, "mx.b.c", some ⟨"a", "b.c"⟩, ⟨"u", "d.e"⟩, none, ⟨⟨[]⟩, []⟩⟩
    let check (net : Ip.Network) (a : Ip.Address) := (store net).check id (request.fromClient a) 0
    let client : Ip.Address := .v4 0xCB007105
    let spelt : Ip.Address := .v6 (mapping 0xCB007105)
    (check network client).1 = ⟨.pass, false⟩ ∧ (check network spelt).1 = ⟨.defer, true⟩ ∧
    (check network client).2.entries.size = 0 ∧ (check network spelt).2.entries.size = 1 ∧
    (check mapped client).1 = ⟨.defer, true⟩ ∧ (check mapped spelt).1 = ⟨.pass, false⟩ := by
  decide +kernel

end Store

end MailScreen.Greylist
