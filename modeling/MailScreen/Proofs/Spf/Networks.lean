import MailScreen.Dns.Zone
import MailScreen.Proofs.Ip.Leading
import MailScreen.Proofs.Ip.Printed
import MailScreen.Proofs.Spf.Cost

/-!
# Networks that are written and networks that are looked up

A policy can name a network by its address, or by a domain whose addresses are looked up. The first
is read as a network, which tests the client; of the second only the length is read, and each
address that is found is compared with the client.

* `ofChars_networkTerm`: a written network is read back as the mechanism for its family.
* `ofChars_scopeText`: so are the domain and the length behind `a` and `mx`.
* `contains_eq`, `isNear_eq`: both test the leading bits of the client, and its family.
* `network_terms_agree` puts them together, from the text of the terms to their matches.
-/

namespace MailScreen.Spf

open MailScreen.Text
open Ip (Network Address)

/-! ## Terms -/

/-- The term that writes a network. -/
def networkTerm (net : Network) : List Char :=
  match net.address with
  | .v4 _ => "ip4:".toList ++ net.toChars
  | .v6 _ => "ip6:".toList ++ net.toChars

/-- The mechanism that tests a network. -/
def networkMechanism (net : Network) : Mechanism :=
  match net.address with
  | .v4 _ => .ip4 net
  | .v6 _ => .ip6 net

/-- The length of a network, as it stands behind the name of a mechanism. -/
def lengthText (net : Network) : List Char :=
  match net.address with
  | .v4 _ => '/' :: Nat.toDigits 10 net.length
  | .v6 _ => '/' :: '/' :: Nat.toDigits 10 net.length

/-- The length of a network for addresses of its family, and all bits for those of the other. -/
def lengthsOf (net : Network) : Lengths :=
  match net.address with
  | .v4 _ => { Lengths.whole with v4 := net.length }
  | .v6 _ => { Lengths.whole with v6 := net.length }

/-! ## Reading -/

theorem network?_toChars (net : Network) :
    network? net.address.width net.toChars = .ok net := by
  have hslash : net.toChars.contains '/' = true := by simp [Network.toChars]
  simp only [network?, hslash, if_true, Network.ofChars?_toChars]

/-- **A written network is read back**, with the bits behind its length. -/
theorem ofChars_networkTerm (net : Network) :
    Mechanism.ofChars (networkTerm net) = .ok (networkMechanism net) := by
  have hread := network?_toChars net
  obtain ⟨address, length, hle⟩ := net
  cases address with
  | v4 bits => exact congrArg (Except.map Mechanism.ip4) hread
  | v6 bits => exact congrArg (Except.map Mechanism.ip6) hread

theorem length?_toDigits (absent : Nat) {n : Nat} (h : n ≤ 255) :
    length? absent (Nat.toDigits 10 n) = .ok n := by
  rw [length?, if_neg (by simp [Nat.toDigits_ne_nil]), unsigned?_toDigits h]

theorem slash_not_mem_toDigits (n : Nat) : '/' ∉ Nat.toDigits 10 n := fun h =>
  absurd (mem_hexDigits_of_mem_toDigits (by decide) (by decide) h) (by decide)

theorem cutDoubleSlash_eq_none {cs : List Char} (h : '/' ∉ cs) : cutDoubleSlash cs = none := by
  induction cs with
  | nil => rfl
  | cons c cs ih =>
    rw [List.mem_cons, not_or] at h
    rw [cutDoubleSlash, ih h.2, Option.map_none]
    rintro rest rfl rfl
    exact h.1 rfl

/-- A slash and a number do not begin with two slashes. -/
theorem dropLead?_slashes (n : Nat) :
    dropLead? ['/', '/'] ('/' :: Nat.toDigits 10 n) = none := by
  obtain ⟨d, ds, hdigits⟩ := List.exists_cons_of_ne_nil
    (Nat.toDigits_ne_nil (n := n) (b := 10))
  have hd : ('/' == d) = false := by
    refine beq_false_of_ne ?_
    rintro rfl
    exact slash_not_mem_toDigits n (hdigits ▸ List.mem_cons_self)
  simp [hdigits, dropLead?, hd]

/-- The number is found on its own side of the double slash. -/
theorem lengthTexts_lengthText (net : Network) : lengthTexts (lengthText net) =
    match net.address with
    | .v4 _ => (Nat.toDigits 10 net.length, [])
    | .v6 _ => ([], Nat.toDigits 10 net.length) := by
  have hsingle := cutDoubleSlash_eq_none (slash_not_mem_toDigits net.length)
  unfold lengthTexts lengthText
  cases net.address with
  | v4 bits =>
    simp only [dropLead?_slashes]
    simp [dropLead?, hsingle]
  | v6 bits => simp [dropLead?]

theorem lengths?_eq_ok {cs : List Char} {m n : Nat} (hm : length? 32 (lengthTexts cs).1 = .ok m)
    (hn : length? 128 (lengthTexts cs).2 = .ok n) (hm' : m ≤ 32) (hn' : n ≤ 128) :
    lengths? cs = .ok ⟨m, n⟩ := by
  show (length? 32 (lengthTexts cs).1 >>= fun m => length? 128 (lengthTexts cs).2 >>= fun n =>
    if m ≤ 32 ∧ n ≤ 128 then .ok (⟨m, n⟩ : Lengths) else .error .lengthOutOfRange) = _
  rw [hm, hn]
  exact if_pos ⟨hm', hn'⟩

/-- **A length is read back** for the addresses of its family. -/
theorem lengths?_lengthText (net : Network) : lengths? (lengthText net) = .ok (lengthsOf net) := by
  have htexts := lengthTexts_lengthText net
  obtain ⟨address, length, hle⟩ := net
  cases address with
  | v4 bits =>
    have hle : length ≤ 32 := hle
    have hlength : length? 32 (Nat.toDigits 10 length) = .ok length :=
      length?_toDigits 32 (by omega)
    refine lengths?_eq_ok ?_ ?_ hle (Nat.le_refl 128)
    · rw [htexts]
      exact hlength
    · rw [htexts]
      rfl
  | v6 bits =>
    have hle : length ≤ 128 := hle
    have hlength : length? 128 (Nat.toDigits 10 length) = .ok length :=
      length?_toDigits 128 (by omega)
    refine lengths?_eq_ok ?_ ?_ (Nat.le_refl 32) hle
    · rw [htexts]
      rfl
    · rw [htexts]
      exact hlength

theorem exists_lengthText_eq (net : Network) : ∃ rest, lengthText net = '/' :: rest := by
  unfold lengthText
  cases net.address with
  | v4 bits => exact ⟨_, rfl⟩
  | v6 bits => exact ⟨_, rfl⟩

/-- A domain that can stand between the name of a mechanism and a length, if there is one. -/
def Placeable (spec : Option String) : Prop :=
  ∀ d ∈ spec, d ≠ "" ∧ '/' ∉ d.toList

/-- What stands behind the name of a mechanism: its domain, if it names one, and the length. -/
def scopeText (spec : Option String) (net : Network) : List Char :=
  match spec with
  | some d => ':' :: d.toList ++ lengthText net
  | none => lengthText net

/-- **A domain and a length are read back.** -/
theorem domainAndLengths_scopeText {spec : Option String} (h : Placeable spec) (net : Network) :
    domainAndLengths (scopeText spec net) = .ok (spec, lengthsOf net) := by
  have hread := lengths?_lengthText net
  obtain ⟨rest, hrest⟩ := exists_lengthText_eq net
  unfold scopeText
  rw [hrest] at hread ⊢
  cases spec with
  | none =>
    show (lengths? ('/' :: rest) >>= fun lengths => .ok (none, lengths)) = _
    rw [hread]
    rfl
  | some d =>
    obtain ⟨hd, hslash⟩ := h d rfl
    obtain ⟨e, es, hes⟩ := List.exists_cons_of_ne_nil (String.toList_eq_nil_iff.not.mpr hd)
    obtain rfl : d = String.ofList (e :: es) := by rw [← hes, String.ofList_toList]
    have hplain : ∀ x ∈ ':' :: e :: es, (x != '/') = true := by
      rw [hes] at hslash
      intro x hx
      refine bne_iff_ne.mpr ?_
      rintro rfl
      rcases List.mem_cons.mp hx with hcolon | hx
      · exact absurd hcolon (by decide)
      · exact hslash hx
    have htake : (':' :: e :: es ++ '/' :: rest).takeWhile (· != '/') = ':' :: e :: es := by
      rw [List.takeWhile_append_of_pos hplain, List.takeWhile_cons_of_neg (by simp),
        List.append_nil]
    have hdrop : (':' :: e :: es ++ '/' :: rest).dropWhile (· != '/') = '/' :: rest := by
      rw [List.dropWhile_append_of_pos hplain, List.dropWhile_cons_of_neg (by simp)]
    show domainAndLengths (':' :: (String.ofList (e :: es)).toList ++ '/' :: rest) = _
    rw [String.toList_ofList, domainAndLengths, htake, hdrop]
    show (lengths? ('/' :: rest) >>= fun lengths =>
      .ok (some (String.ofList (e :: es)), lengths)) = _
    rw [hread]
    rfl

/-- **The two mechanisms that look up addresses** are read back with what they look up and how many
bits they compare. -/
theorem ofChars_scopeText {spec : Option String} (h : Placeable spec) (net : Network) :
    Mechanism.ofChars ("a".toList ++ scopeText spec net) = .ok (.address spec (lengthsOf net)) ∧
      Mechanism.ofChars ("mx".toList ++ scopeText spec net) =
        .ok (.exchange spec (lengthsOf net)) := by
  have hread := domainAndLengths_scopeText h net
  -- The name of a mechanism ends at the first mark, and each of the two begins a scope.
  obtain ⟨mark, rest, hrest, hmark⟩ : ∃ mark rest, scopeText spec net = mark :: rest ∧
      (mark = ':' ∨ mark = '/') := by
    cases spec with
    | none =>
      obtain ⟨rest, hrest⟩ := exists_lengthText_eq net
      exact ⟨_, rest, hrest, .inr rfl⟩
    | some d => exact ⟨_, _, rfl, .inl rfl⟩
  rw [hrest] at hread ⊢
  have haddress := congrArg (Except.map fun p => Mechanism.address p.1 p.2) hread
  have hexchange := congrArg (Except.map fun p => Mechanism.exchange p.1 p.2) hread
  rcases hmark with rfl | rfl
  · exact ⟨haddress, hexchange⟩
  · exact ⟨haddress, hexchange⟩

/-! ## Matches -/

variable {c : Check} {recur : String → StateM State Outcome} {domain : String}

theorem contains_eq (net : Network) (a : Address) :
    net.contains a = decide (Address.SameLead net.length a net.address) := by
  rw [Bool.eq_iff_iff, decide_eq_true_iff, Network.contains, Address.agree_iff]
  exact ⟨Address.SameLead.symm, Address.SameLead.symm⟩

theorem isNear_eq (client : Address) (lengths : Lengths) (a : Address) :
    Check.isNear client lengths a =
      decide (Address.SameLead (Check.lengthFor lengths a) client a) := by
  rw [Bool.eq_iff_iff, decide_eq_true_iff, Check.isNear, Address.agree_iff]

theorem lengthFor_lengthsOf (net : Network) :
    Check.lengthFor (lengthsOf net) net.address = net.length := by
  obtain ⟨address, length, hle⟩ := net
  cases address <;> rfl

theorem isMatch_networkMechanism (net : Network) (s : State) :
    c.isMatch recur domain (networkMechanism net) s = (.ok (net.contains c.client), s) := by
  obtain ⟨address, length, hle⟩ := net
  cases address <;> rfl

theorem target_of_expand? {spec name : String} (h : (c.facts domain).expand? spec = some name) :
    c.target domain (some spec) = pure name := by
  show c.expand domain spec = pure name
  unfold Check.expand
  rw [h]

/-- A mechanism that looks up the addresses of its domain compares the client with each. -/
theorem isMatch_address {spec : Option String} {name : String} {lengths : Lengths}
    {found : List Address} {s t : State} (hname : c.target domain spec = pure name)
    (hlimit : s.counted < c.limit)
    (hfound : c.addresses name { s with counted := s.counted + 1 } = (.ok found, t)) :
    c.isMatch recur domain (.address spec lengths) s =
      (.ok (found.any (Check.isNear c.client lengths)), t) := by
  show (c.count >>= fun _ => c.target domain spec >>= fun name => c.addresses name >>= fun found =>
    pure (found.any (Check.isNear c.client lengths))) s = _
  rw [hname, bind_of_ok (count_of_lt_limit hlimit), pure_bind, bind_of_ok hfound]
  rfl

/-- A mechanism that looks up the one host of its domain compares the client with its addresses. -/
theorem isMatch_exchange {spec : Option String} {name : String} {lengths : Lengths}
    {host : Dns.Exchange} {found : List Address} {s t u : State}
    (hname : c.target domain spec = pure name) (hlimit : s.counted < c.limit)
    (hhost : c.exchanges name { s with counted := s.counted + 1 } = (.ok [host], t))
    (hfound : c.addresses host.host t = (.ok found, u)) :
    c.isMatch recur domain (.exchange spec lengths) s =
      (.ok (found.any (Check.isNear c.client lengths)), u) := by
  show (c.count >>= fun _ => c.target domain spec >>= fun name => c.exchanges name >>= fun hosts =>
    (do
      if maxExchanges < hosts.length then throw .permError
      c.anyHostNear lengths (hosts.mergeSort fun x y => x.preference ≤ y.preference) :
        Eval Bool)) s = _
  rw [hname, bind_of_ok (count_of_lt_limit hlimit), pure_bind, bind_of_ok hhost,
    List.mergeSort_singleton, if_neg (by simp [maxExchanges])]
  show (c.addresses host.host >>= fun found =>
    if found.any (Check.isNear c.client lengths) then pure true else pure false : Eval Bool) t = _
  rw [bind_of_ok hfound]
  cases found.any (Check.isNear c.client lengths) <;> rfl

/-- **The tests on networks agree**, for every client, every address and every length, with any bits
behind the length. A network is written as a term, which is read and matches or not; its address is
found for the domain of an `a` or for the host of an `mx`, and compared as far as the length says.
All come to whether the client is of the same family and has the same leading bits, and thus to
whether it lies in the range of addresses that the network stands for. -/
theorem network_terms_agree (c : Check) (net : Network) {spec : Option String}
    (hspec : Placeable spec) (recur : String → StateM State Outcome) (domain : String) :
    let near := decide (Address.SameLead net.length c.client net.address)
    ∃ written byName byHost, Mechanism.ofChars (networkTerm net) = .ok written ∧
      Mechanism.ofChars ("a".toList ++ scopeText spec net) = .ok byName ∧
      Mechanism.ofChars ("mx".toList ++ scopeText spec net) = .ok byHost ∧
      (∀ s, c.isMatch recur domain written s = (.ok near, s)) ∧
      (∀ lengths, Check.lengthFor lengths net.address = net.length →
        Check.isNear c.client lengths net.address = near) ∧
      (∀ name s t, c.target domain spec = pure name → s.counted < c.limit →
        c.addresses name { s with counted := s.counted + 1 } = (.ok [net.address], t) →
          c.isMatch recur domain byName s = (.ok near, t)) ∧
      (∀ name host s t u, c.target domain spec = pure name → s.counted < c.limit →
        c.exchanges name { s with counted := s.counted + 1 } = (.ok [host], t) →
          c.addresses host.host t = (.ok [net.address], u) →
            c.isMatch recur domain byHost s = (.ok near, u)) ∧
      (c.client.width ≠ net.address.width → near = false) ∧
      (near = true ↔ net.address.width = c.client.width ∧
        (net.address.clearAfter net.length).number ≤ c.client.number ∧
          c.client.number ≤ (net.address.setAfter net.length).number) := by
  intro near
  have hcontains : net.contains c.client = near := contains_eq net c.client
  have hnear (lengths : Lengths) (h : Check.lengthFor lengths net.address = net.length) :
      Check.isNear c.client lengths net.address = near := by
    rw [isNear_eq, h]
  have hfound : [net.address].any (Check.isNear c.client (lengthsOf net)) = near := by
    rw [List.any_cons, List.any_nil, Bool.or_false, hnear _ (lengthFor_lengthsOf net)]
  obtain ⟨hbyName, hbyHost⟩ := ofChars_scopeText hspec net
  refine ⟨_, _, _, ofChars_networkTerm net, hbyName, hbyHost, fun s => ?_, hnear,
    fun name s t hname hlimit haddresses => ?_,
    fun name host s t u hname hlimit hhost haddresses => ?_, fun hfamily => ?_, ?_⟩
  · rw [isMatch_networkMechanism, hcontains]
  · rw [isMatch_address hname hlimit haddresses, hfound]
  · rw [isMatch_exchange hname hlimit hhost haddresses, hfound]
  · exact decide_eq_false fun h => hfamily h.1
  · rw [← hcontains, Network.contains_iff_between]

/-- A network of 25 bits whose address has bits set behind them, written, and found by name. -/
theorem network_terms_agree_host_bits :
    let zone := ((Dns.Zone.empty.addAddress "nets.example.com" (.v4 0xCB00714D)).addExchange
      "nets.example.com" 10 "mx.example.com").addAddress "mx.example.com" (.v4 0xCB00714D)
    let c : Check := ⟨zone.resolver, ⟨0, none⟩, 10, .v4 0xCB007105, "alice", "example.com", ""⟩
    let matched (m : Mechanism) : Except Outcome Bool × State :=
      c.isMatch (fun _ => pure .none) "example.com" m ⟨⟨0, []⟩, 0, []⟩
    Placeable (some "nets.example.com") ∧ ∃ written byName byHost,
      Mechanism.ofChars "ip4:203.0.113.77/25".toList = .ok written ∧
      Mechanism.ofChars "a:nets.example.com/25".toList = .ok byName ∧
      Mechanism.ofChars "mx:nets.example.com/25".toList = .ok byHost ∧
      matched written = (.ok true, ⟨⟨0, []⟩, 0, []⟩) ∧
      matched byName = (.ok true, ⟨⟨0, [.ip "nets.example.com"]⟩, 1, []⟩) ∧
      matched byHost =
        (.ok true, ⟨⟨0, [.ip "mx.example.com", .mx "nets.example.com"]⟩, 1, []⟩) := by
  intro zone c matched
  let net : Network := ⟨.v4 0xCB00714D, 25, by decide⟩
  have hspec : Placeable (some "nets.example.com") := by
    intro d hd
    obtain rfl := Option.some.inj hd
    decide
  have hname : c.target "example.com" (some "nets.example.com") = pure "nets.example.com" :=
    target_of_expand? (by decide +kernel)
  have hnear : Address.SameLead net.length c.client net.address := by decide +kernel
  have hterms : networkTerm net = "ip4:203.0.113.77/25".toList ∧
      scopeText (some "nets.example.com") net = ":nets.example.com/25".toList := by decide +kernel
  let found (name : String) (s : State) : Except Outcome (List Address) × State :=
    c.addresses name s
  let hosts (name : String) (s : State) : Except Outcome (List Dns.Exchange) × State :=
    c.exchanges name s
  have haddresses : found "nets.example.com" ⟨⟨0, []⟩, 1, []⟩ =
      (.ok [net.address], ⟨⟨0, [.ip "nets.example.com"]⟩, 1, []⟩) := by decide +kernel
  have hhosts : hosts "nets.example.com" ⟨⟨0, []⟩, 1, []⟩ =
      (.ok [⟨10, "mx.example.com"⟩], ⟨⟨0, [.mx "nets.example.com"]⟩, 1, []⟩) := by decide +kernel
  have hhostAddresses : found "mx.example.com" ⟨⟨0, [.mx "nets.example.com"]⟩, 1, []⟩ =
      (.ok [net.address], ⟨⟨0, [.ip "mx.example.com", .mx "nets.example.com"]⟩, 1, []⟩) := by
    decide +kernel
  obtain ⟨written, byName, byHost, hwritten, hbyName, hbyHost, h, -, haddress, hexchange, -⟩ :=
    network_terms_agree c net hspec (fun _ => pure .none) "example.com"
  rw [hterms.1] at hwritten
  rw [hterms.2] at hbyName hbyHost
  rw [decide_eq_true hnear] at h haddress hexchange
  refine ⟨hspec, written, byName, byHost, hwritten, hbyName, hbyHost, h _, ?_, ?_⟩
  · exact haddress _ _ _ hname (by decide) haddresses
  · exact hexchange _ _ _ _ _ hname (by decide) hhosts hhostAddresses

end MailScreen.Spf
