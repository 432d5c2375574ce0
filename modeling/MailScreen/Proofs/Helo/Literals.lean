import MailScreen.Helo
import MailScreen.Proofs.Ip.Printed
import MailScreen.Proofs.Text.Ascii

/-!
# Addresses in place of names

A client that has no name may give its address, as it is or as an address literal. Then it is judged
by that address and by nothing else.

* `Spells a text`: the text writes the address in one of these ways.
* `stripped_spelt`, `isLocal_spelt`: such a text loses nothing but the blanks around it, and is not
  taken for a local name.
* `literal?_enclosed`: what is between the brackets, without the tag, is taken for the address.
* `isSuspicious_spelt_iff`: the address is suspicious just if it is not the client's.
-/

namespace MailScreen.Helo

open MailScreen.Text
open Ip (Address printable)

/-- **The ways to write an address in place of a name**: its printed form, with brackets around it,
and with the tag for IPv6 behind the first bracket, in any letter case. -/
inductive Spells (a : Address) : List Char → Prop where
  | bare : Spells a a.toChars
  | enclosed : Spells a ('[' :: a.toChars ++ [']'])
  | tagged {tag : List Char} (h : eqIgnoreCase tag "IPv6:".toList = true) :
    Spells a ('[' :: (tag ++ a.toChars) ++ [']'])

variable {a : Address} {text : List Char}

/-! ## The ends -/

/-- A printed address begins with one of its characters. -/
theorem exists_toChars_eq_cons (a : Address) :
    ∃ c cs, a.toChars = c :: cs ∧ c ∈ printable := by
  have hne : a.toChars ≠ [] := by
    intro h
    have hread := Address.ofChars?_toChars a
    have hnone : Address.ofChars? [] = none := by decide
    rw [h, hnone] at hread
    cases hread
  obtain ⟨c, cs, hcons⟩ := List.exists_cons_of_ne_nil hne
  exact ⟨c, cs, hcons, Ip.mem_printable_of_mem_toChars (hcons ▸ List.mem_cons_self)⟩

theorem Spells.exists_eq_cons (h : Spells a text) :
    ∃ c cs, text = c :: cs ∧ c ∈ '[' :: printable := by
  cases h with
  | bare =>
    obtain ⟨c, cs, hcons, hc⟩ := exists_toChars_eq_cons a
    exact ⟨c, cs, hcons, List.mem_cons_of_mem _ hc⟩
  | enclosed => exact ⟨_, _, rfl, List.mem_cons_self⟩
  | tagged => exact ⟨_, _, rfl, List.mem_cons_self⟩

theorem Spells.mem_of_getLast? (h : Spells a text) {c : Char} (hc : text.getLast? = some c) :
    c ∈ ']' :: ':' :: hexDigits := by
  cases h with
  | bare => exact List.mem_cons_of_mem _ (Ip.getLast?_toChars hc)
  | enclosed =>
    rw [List.getLast?_concat, Option.some.injEq] at hc
    exact hc ▸ List.mem_cons_self
  | tagged =>
    rw [List.getLast?_concat, Option.some.injEq] at hc
    exact hc ▸ List.mem_cons_self

/-- **What is left of the text** without blanks around it and dots at its end is all of it. -/
theorem stripped_spelt (h : Spells a text) {front back : List Char}
    (hfront : ∀ c ∈ front, isBlank c = true) (hback : ∀ c ∈ back, isBlank c = true) :
    DomainName.stripped (front ++ text ++ back) = text := by
  have hfirst : ∀ c ∈ '[' :: printable, isBlank c = false := forall_mem_of_all (by decide)
  have hlast : ∀ c ∈ ']' :: ':' :: hexDigits, isBlank c = false ∧ (c == '.') = false :=
    forall_mem_of_all (by decide)
  obtain ⟨c, cs, hcons, hc⟩ := h.exists_eq_cons
  have htrimmed : Trimmed text := by
    refine ⟨fun d hd => hfirst d ?_, fun d hd => (hlast d (h.mem_of_getLast? hd)).1⟩
    rw [hcons, List.head?_cons, Option.some.injEq] at hd
    exact hd ▸ hc
  rw [DomainName.stripped, trim_append_of_blank hback, trim_blank_append hfront,
    trim_eq_self htrimmed, dropEndWhile_eq_self fun d hd => (hlast d (h.mem_of_getLast? hd)).2]

/-- An address is not taken for a local name, as it does not begin like one. -/
theorem isLocal_spelt (h : Spells a text) : isLocal text = false := by
  have hfirst : ∀ c ∈ '[' :: printable, c.toLower ≠ 'l' := forall_mem_of_all (by decide)
  obtain ⟨c, cs, rfl, hc⟩ := h.exists_eq_cons
  have hname (cs' : List Char) : eqIgnoreCase (c :: cs) ('l' :: cs') = false := by
    refine beq_false_of_ne fun heq => hfirst c hc ?_
    exact (List.cons.inj heq).1
  have hlocal := hname "ocalhost".toList
  have hlocal' := hname "ocalhost.localdomain".toList
  rw [isLocal]
  simp_all

/-! ## Literals -/

theorem literal?_enclosed (inside : List Char) : literal? ('[' :: inside ++ [']']) =
    if eqIgnoreCase (inside.take 5) "ipv6:".toList then some (inside.drop 5) else some inside := by
  simp [literal?, dropLead?]

/-- A bare address is no literal, and without a tag nothing of an address is taken for one. -/
theorem literal?_spelt (h : Spells a text) :
    literal? text = some a.toChars ∨ literal? text = none ∧ text = a.toChars := by
  obtain ⟨c, cs, hcons, hc⟩ := exists_toChars_eq_cons a
  cases h with
  | bare =>
    have hfirst : ∀ c ∈ printable, c ≠ '[' := forall_mem_of_all (by decide)
    exact Or.inr ⟨by simp [literal?, dropLead?, hcons, (hfirst c hc).symm], rfl⟩
  | enclosed =>
    have hfirst : ∀ c ∈ printable, c.toLower ≠ 'i' := forall_mem_of_all (by decide)
    have huntagged : eqIgnoreCase (a.toChars.take 5) "ipv6:".toList = false := by
      rw [hcons]
      exact beq_false_of_ne fun heq => hfirst c hc (List.cons.inj heq).1
    exact Or.inl (by rw [literal?_enclosed, huntagged, if_neg Bool.false_ne_true])
  | @tagged tag htag =>
    have hlower : lowerAscii tag = "ipv6:".toList := eqIgnoreCase_iff.mp htag
    have hlength : tag.length = 5 := by simpa [lowerAscii] using congrArg List.length hlower
    have htagged : eqIgnoreCase ((tag ++ a.toChars).take 5) "ipv6:".toList = true := by
      rw [List.take_left' hlength, eqIgnoreCase_iff, hlower]
      decide
    exact Or.inl (by rw [literal?_enclosed, if_pos htagged, List.drop_left' hlength])

/-! ## Suspicion -/

/-- **An address in place of a name is suspicious** just if it is not the client's, both being taken
as IPv4 if they are IPv4-mapped. Blanks around it make no difference. -/
theorem isSuspicious_spelt_iff (h : Spells a text) {front back : List Char}
    (hfront : ∀ c ∈ front, isBlank c = true) (hback : ∀ c ∈ back, isBlank c = true)
    (client : Address) :
    isSuspicious (String.ofList (front ++ text ++ back)) client = true ↔
      a.canonical ≠ client.canonical := by
  have hread := Address.ofChars?_toChars a
  unfold isSuspicious isSuspiciousChars
  simp only [String.toList_ofList, stripped_spelt h hfront hback, isLocal_spelt h]
  rcases literal?_spelt h with hliteral | ⟨hliteral, rfl⟩
  · simp [hliteral, hread, sameHost]
  · simp [hliteral, hread, sameHost]

theorem isSuspicious_spelt_iff_mapped :
    let mapped : Address := .v6 (Address.mapping 0xCB007105)
    let text := "[iPv6:::ffff:203.0.113.5]".toList
    let blanks := ['\t', '\u3000']
    Spells mapped text ∧ (∀ c ∈ blanks, isBlank c = true) ∧
      isSuspicious (String.ofList (blanks ++ text ++ blanks)) (.v4 0xCB007105) = false ∧
      isSuspicious (String.ofList (blanks ++ text ++ blanks)) (.v4 0xCB007106) = true := by
  intro mapped text blanks
  have htag : eqIgnoreCase "iPv6:".toList "IPv6:".toList = true := by decide
  have hspelt : Spells mapped text := .tagged htag
  have hblank : ∀ c ∈ blanks, isBlank c = true := forall_mem_of_all (by decide)
  have hiff := isSuspicious_spelt_iff hspelt hblank hblank
  refine ⟨hspelt, hblank, ?_, (hiff _).mpr (by decide)⟩
  exact Bool.eq_false_iff.mpr fun h => (hiff _).mp h (by decide)

end MailScreen.Helo
