import MailScreen.Config.Valid
import MailScreen.Greylist.Store
import MailScreen.Proofs.Ip.Leading
import MailScreen.Proofs.Ip.Printed
import Mathlib.Tactic.SplitIfs

/-!
# Blocks of addresses

Clients of one block are the same sender to a store. It knows a block by its text, so this says
which clients are the same to it only if different blocks have different texts.

* `blockLength_le_width`: settings that are not refused give blocks of every address.
* `block_eq`: the text of a block is that of the network that is left of the address without the
  bits behind the length.
* `block_eq_iff`: two clients are of one block just if their leading bits are the same.
-/

namespace MailScreen

/-- Settings that are not refused have block lengths that addresses have bits for. -/
theorem Config.blockLengths_of_check {c : Config} (h : c.check = .ok ()) :
    c.greylist.v4Length ≤ 32 ∧ c.greylist.v6Length ≤ 128 := by
  have hfault := check_eq_ok_iff.mp h
  unfold fault? at hfault
  split_ifs at hfault with hthresholds hclient hidentity hlength hwait
  all_goals exact ⟨by omega, by omega⟩

namespace Greylist

open Ip (Address)

variable {c : Config}

theorem blockLength_le_width (h : c.check = .ok ()) (a : Address) :
    (Policy.ofSettings c.greylist).blockLength a ≤ a.width := by
  obtain ⟨hv4, hv6⟩ := Config.blockLengths_of_check h
  cases a with
  | v4 bits => exact hv4
  | v6 bits => exact hv6

variable {p : Policy} {a b : Address}

theorem blockLength_eq (h : a.width = b.width) : p.blockLength a = p.blockLength b := by
  cases a <;> cases b <;> simp_all [Address.width, Policy.blockLength]

/-- **The text of a block** is that of a network without bits behind its length. -/
theorem block_eq (h : p.blockLength a.canonical ≤ a.canonical.width) :
    p.block a = (Ip.Network.truncated ⟨a.canonical, p.blockLength a.canonical, h⟩).toText := by
  simp only [Policy.block, Ip.Network.ofAddress?, dif_pos h]

/-- Where addresses have bits enough, a block is what the leading bits say. -/
theorem block_eq_iff_sameLead (ha : p.blockLength a.canonical ≤ a.canonical.width)
    (hb : p.blockLength b.canonical ≤ b.canonical.width) : p.block a = p.block b ↔
      Address.SameLead (p.blockLength a.canonical) a.canonical b.canonical := by
  rw [block_eq ha, block_eq hb]
  constructor
  · intro htext
    obtain ⟨haddress, hlength⟩ := Ip.Network.mk.inj (Ip.Network.toText_injective htext)
    refine Address.clearAfter_eq_iff.mp (haddress.trans ?_)
    exact congrArg (b.canonical.clearAfter ·) hlength.symm
  · intro hlead
    have hlength : p.blockLength a.canonical = p.blockLength b.canonical := blockLength_eq hlead.1
    have haddress := Address.clearAfter_eq_iff.mpr hlead
    refine congrArg Ip.Network.toText ?_
    simp only [Ip.Network.truncated, Ip.Network.mk.injEq]
    exact ⟨haddress.trans (congrArg (b.canonical.clearAfter ·) hlength), hlength⟩

/-- **Two clients are of one block** just if they are of one family and agree on as many leading
bits as make up a block of it, both being taken as IPv4 if they are IPv4-mapped. -/
theorem block_eq_iff (h : c.check = .ok ()) (a b : Address) :
    (Policy.ofSettings c.greylist).block a = (Policy.ofSettings c.greylist).block b ↔
      Address.SameLead ((Policy.ofSettings c.greylist).blockLength a.canonical) a.canonical
        b.canonical :=
  block_eq_iff_sameLead (blockLength_le_width h a.canonical) (blockLength_le_width h b.canonical)

theorem block_eq_iff_widths :
    let c : Config := { greylist := { v4Length := 23, v6Length := 0 } }
    let p := Policy.ofSettings c.greylist
    let client : Address := .v4 0xCB007005
    let neighbour : Address := .v6 (Address.mapping 0xCB007109)
    let stranger : Address := .v4 0xCB007209
    let loopback : Address := .v6 1
    c.check = .ok () ∧ p.block client = p.block neighbour ∧ p.block client ≠ p.block stranger ∧
      p.block client ≠ p.block loopback ∧
      p.block loopback = p.block (.v6 (BitVec.allOnes 128)) := by
  intro c p client neighbour stranger loopback
  have hc : c.check = .ok () := by decide +kernel
  have hiff := block_eq_iff hc
  exact ⟨hc, (hiff _ _).mpr (by decide), fun h => absurd ((hiff _ _).mp h) (by decide),
    fun h => absurd ((hiff _ _).mp h) (by decide), (hiff _ _).mpr (by decide)⟩

end Greylist

end MailScreen
