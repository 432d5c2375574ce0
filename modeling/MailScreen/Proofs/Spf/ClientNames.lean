import MailScreen.Proofs.Mail.Domain
import MailScreen.Proofs.Spf.AnswerOrder
import MailScreen.Proofs.Spf.Entering

/-!
# Names for clients

A policy can name a domain for each client: the macro `%{i}` stands for the address of the client,
`%{ir}` for the same with its parts in reverse. Two clients never share such a name, so what is
published for one of them is not found for another.

* `addressLabels` are the parts of an address between its dots; `addressLabels_injective`: they tell
  all addresses apart, also those of different families.
* `expand?_client` is the name that comes from the macro and a text behind it. Normal form leaves
  the address alone, and what it does to the text does not depend on the client.
* `isMatch_existing`: a mechanism `exists` looks up its name, and nothing else.
* `existing_separates` puts them together.
-/

namespace MailScreen.Spf

open MailScreen.Text
open Ip (Address)
open Ip.Address (octets)

/-! ## Digits -/

/-- A lower-case hexadecimal digit. -/
def IsHexDigit (c : Char) : Prop :=
  48 ≤ c.toNat ∧ c.toNat ≤ 57 ∨ 97 ≤ c.toNat ∧ c.toNat ≤ 102

section Digits

variable {c : Char}

theorem IsHexDigit.ne_dot (h : IsHexDigit c) : (c == '.') = false := by
  rw [beq_eq_false_iff_ne]
  rintro rfl
  exact absurd h (by unfold IsHexDigit; decide)

theorem IsHexDigit.isBlank (h : IsHexDigit c) : isBlank c = false := by
  unfold IsHexDigit at h
  simp only [Text.isBlank, Bool.or_eq_false_iff, Bool.and_eq_false_iff, decide_eq_false_iff_not,
    beq_eq_false_iff_ne]
  omega

theorem IsHexDigit.toLower_eq (h : IsHexDigit c) : c.toLower = c := by
  apply Char.toNat_inj.mp
  unfold IsHexDigit at h
  rw [toNat_toLower, if_neg (by omega)]

theorem isHexDigit_of_isDigit (h : c.isDigit = true) : IsHexDigit c :=
  .inl (Char.isDigit_iff_toNat.mp h)

theorem isHexDigit_digit {n : Nat} (h : n < 16) : IsHexDigit (Hex.digit n) := by
  unfold IsHexDigit Hex.digit
  decide +revert

theorem digit_injective {m n : Nat} (hm : m < 16) (hn : n < 16)
    (h : Hex.digit m = Hex.digit n) : m = n := by
  have hall : ∀ m < 16, ∀ n < 16, Hex.digit m = Hex.digit n → m = n := by decide
  exact hall m hm n hn h

theorem toDigits_injective {m n : Nat} (h : Nat.toDigits 10 m = Nat.toDigits 10 n) : m = n := by
  rw [← Nat.ofDigitChars_ten_toDigits (n := m), h, Nat.ofDigitChars_ten_toDigits]

end Digits

/-! ## Labels of addresses -/

theorem octets_injective {a b : BitVec 32} (h : octets a = octets b) : a = b := by
  simp only [octets, List.map_cons, List.map_nil, List.cons.injEq, and_true,
    BitVec.toNat_ushiftRight, Nat.shiftRight_eq_div_pow] at h
  apply BitVec.eq_of_toNat_eq
  have ha := a.isLt
  have hb := b.isLt
  omega

theorem getElem?_nibbles (bits : BitVec 128) {i : Nat} (hi : i < 32) :
    (nibbles bits)[31 - i]? = some (Hex.digit ((bits >>> (4 * i)).toNat % 16)) := by
  have hindex : 31 - (31 - i) = i := by omega
  simp [nibbles, hindex, show 31 - i < 32 by omega]

/-- A word is told by its hexadecimal digits, as each bit is one of a digit. -/
theorem nibbles_injective {a b : BitVec 128} (h : nibbles a = nibbles b) : a = b := by
  have hnibble (i : Nat) (hi : i < 32) :
      (a >>> (4 * i)).toNat % 16 = (b >>> (4 * i)).toNat % 16 := by
    have hdigit := congrArg (·[31 - i]?) h
    simp only [getElem?_nibbles _ hi, Option.some_inj] at hdigit
    exact digit_injective (Nat.mod_lt _ (by decide)) (Nat.mod_lt _ (by decide)) hdigit
  apply BitVec.eq_of_getLsbD_eq
  intro j hj
  have hlow (x : Nat) : (x % 16).testBit (j % 4) = x.testBit (j % 4) := by
    rw [show 16 = 2 ^ 4 from rfl, Nat.testBit_mod_two_pow,
      decide_eq_true (Nat.mod_lt j (by decide)), Bool.true_and]
  have hbit := congrArg (·.testBit (j % 4)) (hnibble (j / 4) (by omega))
  simpa only [hlow, BitVec.toNat_ushiftRight, Nat.testBit_shiftRight, Nat.div_add_mod,
    BitVec.testBit_toNat] using hbit

/-- The parts between the dots of an address in macros. -/
def addressLabels : Address → List (List Char)
  | .v4 bits => (octets bits).map (Nat.toDigits 10)
  | .v6 bits => (nibbles bits).map ([·])

theorem addressText_eq (a : Address) : addressText a = ['.'].intercalate (addressLabels a) := by
  cases a with
  | v4 bits => rfl
  | v6 bits => rfl

/-- **An address is told by its labels**, also from one of the other family. -/
theorem addressLabels_injective {a b : Address} (h : addressLabels a = addressLabels b) :
    a = b := by
  have hlength := congrArg List.length h
  cases a with
  | v4 bits =>
    cases b with
    | v4 bits' =>
      have hoctets := List.map_injective_iff.mpr (fun _ _ => toDigits_injective) h
      rw [octets_injective hoctets]
    | v6 bits' => simp [addressLabels, octets, nibbles] at hlength
  | v6 bits =>
    cases b with
    | v4 bits' => simp [addressLabels, octets, nibbles] at hlength
    | v6 bits' =>
      have hnibbles := List.map_injective_iff.mpr (fun _ _ h => (List.cons.inj h).1) h
      rw [nibbles_injective hnibbles]

theorem isHexDigit_of_mem_addressLabels {a : Address} {label : List Char}
    (h : label ∈ addressLabels a) : label ≠ [] ∧ ∀ c ∈ label, IsHexDigit c := by
  cases a with
  | v4 bits =>
    obtain ⟨n, -, rfl⟩ := List.mem_map.mp h
    exact ⟨Nat.toDigits_ne_nil, fun c hc => isHexDigit_of_isDigit
      (Nat.isDigit_of_mem_toDigits (by decide) (by decide) hc)⟩
  | v6 bits =>
    obtain ⟨c, hc, rfl⟩ := List.mem_map.mp h
    obtain ⟨i, -, rfl⟩ := List.mem_map.mp hc
    simpa using isHexDigit_digit (Nat.mod_lt _ (by decide))

/-! ## The address of the client in names -/

/-- The labels of an address, from the last to the first if `reversed`. -/
def clientLabels (reversed : Bool) (a : Address) : List (List Char) :=
  if reversed then (addressLabels a).reverse else addressLabels a

/-- The macro for the address of the client. -/
def clientMacro (reversed : Bool) : String :=
  if reversed then "%\x7bir\x7d" else "%\x7bi\x7d"

/-- What the macro stands for. -/
def clientText (reversed : Bool) (a : Address) : List Char :=
  ['.'].intercalate (clientLabels reversed a)

variable {reversed : Bool} {a b : Address}

theorem mem_clientLabels_iff {label : List Char} :
    label ∈ clientLabels reversed a ↔ label ∈ addressLabels a := by
  cases reversed with
  | false => exact Iff.rfl
  | true => exact List.mem_reverse

theorem clientLabels_ne_nil (reversed : Bool) (a : Address) : clientLabels reversed a ≠ [] := by
  cases reversed <;> cases a <;> simp [clientLabels, addressLabels, octets, nibbles]

theorem isHexDigit_of_mem_clientLabels {label : List Char} (h : label ∈ clientLabels reversed a) :
    label ≠ [] ∧ ∀ c ∈ label, IsHexDigit c :=
  isHexDigit_of_mem_addressLabels (mem_clientLabels_iff.mp h)

/-- Cutting at the dots gives back the labels. -/
theorem pieces_clientText (reversed : Bool) (a : Address) :
    pieces (['.'].contains ·) (clientText reversed a) = clientLabels reversed a := by
  refine pieces_intercalate rfl (clientLabels_ne_nil reversed a) fun label hlabel c hc => ?_
  simpa using ((isHexDigit_of_mem_clientLabels hlabel).2 c hc).ne_dot

/-- **The text of a client tells which client it is.** -/
theorem clientText_injective (h : clientText reversed a = clientText reversed b) : a = b := by
  have hlabels : clientLabels reversed a = clientLabels reversed b := by
    rw [← pieces_clientText, h, pieces_clientText]
  cases reversed with
  | false => exact addressLabels_injective hlabels
  | true => exact addressLabels_injective (List.reverse_inj.mp hlabels)

/-- Labels with dots between them begin and end as the first and the last of them do. -/
theorem intercalate_ends : ∀ {labels : List (List Char)}, labels ≠ [] →
    (∀ label ∈ labels, label ≠ [] ∧ ∀ c ∈ label, IsHexDigit c) →
      (∃ c, (['.'].intercalate labels).head? = some c ∧ IsHexDigit c) ∧
        ∃ c, (['.'].intercalate labels).getLast? = some c ∧ IsHexDigit c
  | [], hne, _ => absurd rfl hne
  | [label], _, h => by
    obtain ⟨hlabel, hdigits⟩ := h label List.mem_cons_self
    rw [List.intercalate_singleton, List.head?_eq_some_head hlabel,
      List.getLast?_eq_some_getLast hlabel]
    exact ⟨⟨_, rfl, hdigits _ (List.head_mem hlabel)⟩, _, rfl, hdigits _ (List.getLast_mem hlabel)⟩
  | label :: next :: labels, _, h => by
    obtain ⟨hlabel, hdigits⟩ := h label List.mem_cons_self
    obtain ⟨-, c, hlast, hc⟩ := intercalate_ends (List.cons_ne_nil next labels)
      fun q hq => h q (List.mem_cons_of_mem label hq)
    rw [List.intercalate_cons_cons]
    refine ⟨⟨label.head hlabel, ?_, hdigits _ (List.head_mem hlabel)⟩, c, ?_, hc⟩
    · simp [List.head?_append, List.head?_eq_some_head hlabel]
    · rw [List.getLast?_append, hlast]
      rfl

theorem lowerAscii_clientText (reversed : Bool) (a : Address) :
    lowerAscii (clientText reversed a) = clientText reversed a := by
  refine (List.map_congr_left fun c hc => ?_).trans (List.map_id _)
  rcases mem_of_mem_intercalate hc with hdot | ⟨label, hlabel, hc⟩
  · rw [List.mem_singleton.mp hdot]
    rfl
  · exact ((isHexDigit_of_mem_clientLabels hlabel).2 c hc).toLower_eq

/-! ## Expansion -/

variable {t : List Char}

/-- A text without a macro stands for itself. -/
theorem expandFrom?_of_plain (f : Facts) (ht : '%' ∉ t) : f.expandFrom? none t = some t := by
  induction t with
  | nil => rfl
  | cons c t ih =>
    rw [List.mem_cons, not_or] at ht
    have hc : c ≠ '%' := Ne.symm ht.1
    simp [Facts.expandFrom?, hc, ih ht.2]

theorem macroText?_client (f : Facts) (reversed : Bool) :
    f.macroText? (if reversed then ['i', 'r'] else ['i']) =
      some (clientText reversed f.client) := by
  have hvalue : f.value? 'i' = some (clientText false f.client) :=
    congrArg some (addressText_eq f.client)
  have hpieces := pieces_clientText false f.client
  cases reversed with
  | false =>
    rw [if_neg Bool.false_ne_true, Facts.macroText?, hvalue]
    show some (['.'].intercalate (pieces (['.'].contains ·) _)) = _
    rw [hpieces]
    rfl
  | true =>
    rw [if_pos rfl, Facts.macroText?, hvalue]
    show some (['.'].intercalate (pieces (['.'].contains ·) _).reverse) = _
    rw [hpieces]
    rfl

theorem expandFrom?_client (f : Facts) (reversed : Bool) (ht : '%' ∉ t) :
    f.expandFrom? none ((clientMacro reversed).toList ++ t) =
      some (clientText reversed f.client ++ t) := by
  have hmacro := macroText?_client f reversed
  cases reversed with
  | false => simp_all [clientMacro, Facts.expandFrom?, expandFrom?_of_plain f ht]
  | true => simp_all [clientMacro, Facts.expandFrom?, expandFrom?_of_plain f ht]

/-- What is left in normal form of a text that stands behind the address of a client. -/
def suffixChars (t : List Char) : List Char :=
  lowerAscii (dropEndWhile (· == '.') (dropEndWhile isBlank t))

/-- **The normal form** of the address of a client and a text behind it. -/
theorem normalizeChars_clientText_append (reversed : Bool) (a : Address) (t : List Char) :
    DomainName.normalizeChars (clientText reversed a ++ t) =
      clientText reversed a ++ suffixChars t := by
  obtain ⟨⟨first, hfirst, hf⟩, last, hlast, hl⟩ := intercalate_ends (clientLabels_ne_nil reversed a)
    fun _ => isHexDigit_of_mem_clientLabels
  change (clientText reversed a).head? = some first at hfirst
  change (clientText reversed a).getLast? = some last at hlast
  have hdrop : (clientText reversed a ++ t).dropWhile isBlank = clientText reversed a ++ t :=
    dropWhile_eq_self fun c hc => by
      rw [List.head?_append, hfirst] at hc
      exact Option.some.inj hc ▸ hf.isBlank
  rw [DomainName.normalizeChars, DomainName.stripped, trim, dropAround, hdrop,
    dropEndWhile_append_of_last hlast hl.isBlank, dropEndWhile_append_of_last hlast hl.ne_dot,
    lowerAscii, List.map_append]
  exact congrArg (· ++ suffixChars t) (lowerAscii_clientText reversed a)

/-- The name of a client, with a text behind its address. -/
def clientName (reversed : Bool) (t : String) (a : Address) : String :=
  String.ofList (clientText reversed a ++ suffixChars t.toList)

/-- **Two clients have two names.** -/
theorem clientName_injective {t : String} (h : clientName reversed t a = clientName reversed t b) :
    a = b :=
  clientText_injective (List.append_cancel_right (String.ofList_injective h))

/-- **The macro, and a text behind it, stand for the name of the client.** -/
theorem expand?_client (f : Facts) (reversed : Bool) {t : String} (ht : '%' ∉ t.toList) :
    f.expand? (clientMacro reversed ++ t) = some (clientName reversed t f.client) := by
  rw [Facts.expand?, String.toList_append, expandFrom?_client f reversed ht, Option.map_some,
    normalizeChars_clientText_append]
  rfl

/-- A name that comes from an expansion is its own key. -/
theorem key_of_expand? {f : Facts} {spec name : String} (h : f.expand? spec = some name) :
    Dns.Zone.key name = name := by
  obtain ⟨cs, -, rfl⟩ := Option.map_eq_some_iff.mp h
  rw [Dns.Zone.key, String.toList_ofList, DomainName.normalizeChars, DomainName.stripped,
    dropEndWhile_eq_self fun c => DomainName.ne_dot_of_getLast?, lowerAscii_lowerAscii]

/-! ## Lookups -/

variable {c : Check} {recur : String → StateM State Outcome} {domain spec name : String}

/-- The mechanism counts as a term and then looks up its name. -/
theorem isMatch_existing (h : (c.facts domain).expand? spec = some name) :
    c.isMatch recur domain (.existing spec) =
      c.count >>= fun _ => c.addresses name >>= fun found => pure (! found.isEmpty) := by
  have hexpand : c.expand domain spec = pure name := by
    unfold Check.expand
    rw [h]
  show (c.count >>= fun _ => c.expand domain spec >>= fun name => c.addresses name >>= fun found =>
    pure (! found.isEmpty)) = _
  rw [hexpand]
  rfl

/-- **No other name is looked up.** -/
theorem history_isMatch_existing (h : (c.facts domain).expand? spec = some name) (s : State) :
    (c.isMatch recur domain (.existing spec) s).2.session.history = s.session.history ∨
      (c.isMatch recur domain (.existing spec) s).2.session.history =
        .ip name :: s.session.history := by
  rw [isMatch_existing h]
  by_cases hlimit : s.counted < c.limit
  · rw [bind_of_ok (count_of_lt_limit hlimit)]
    let counted : State := { s with counted := s.counted + 1 }
    have hasked := history_resolve c.context (.ip name) (c.resolver.ip · name) counted.session
    change (c.addresses name counted).2.session.history = _ ∨
      (c.addresses name counted).2.session.history = _ at hasked
    rcases haddresses : c.addresses name counted with ⟨found | e, t⟩
    · rw [bind_of_error haddresses]
      rwa [haddresses] at hasked
    · rw [bind_of_ok haddresses]
      rwa [haddresses] at hasked
  · rw [bind_of_error (count_of_limit_le (Nat.le_of_not_lt hlimit))]
    exact .inl rfl

/-- What is added at another key is not there. -/
theorem valuesAt_append_of_ne {α : Type} (records : List (String × α)) {k k' : String}
    (h : k' ≠ k) (value : α) :
    Dns.Zone.valuesAt (records ++ [(k', value)]) k = Dns.Zone.valuesAt records k := by
  simp [Dns.Zone.valuesAt, h]

theorem addresses_addAddress_of_ne (z : Dns.Zone) {other : String}
    (h : Dns.Zone.key other ≠ Dns.Zone.key name) (value : Address) :
    (c.on (z.addAddress other value)).addresses name = (c.on z).addresses name := by
  have hanswer : (z.addAddress other value).answer (z.addAddress other value).addresses name =
      z.answer z.addresses name := by
    unfold Dns.Zone.answer Dns.Zone.addAddress
    rw [valuesAt_append_of_ne z.addresses h]
  show Check.lookup (c.context.resolve _ fun _ => ⟨z.delay, _⟩) = _
  rw [hanswer]
  rfl

/-- **What is published at another name** makes no difference to the mechanism. -/
theorem isMatch_existing_addAddress (h : (c.facts domain).expand? spec = some name)
    (z : Dns.Zone) {other : String} (hother : Dns.Zone.key other ≠ Dns.Zone.key name)
    (value : Address) : (c.on (z.addAddress other value)).isMatch recur domain (.existing spec) =
      (c.on z).isMatch recur domain (.existing spec) := by
  rw [isMatch_existing (c := c.on (z.addAddress other value)) h,
    isMatch_existing (c := c.on z) h, addresses_addAddress_of_ne z hother]
  rfl

/-! ## Two clients -/

/-- The same check for another client. -/
def Check.forClient (c : Check) (a : Address) : Check :=
  { c with client := a.canonical }

theorem Check.expand?_forClient (c : Check) (domain : String) (reversed : Bool) {t : String}
    (ht : '%' ∉ t.toList) (a : Address) :
    ((c.forClient a).facts domain).expand? (clientMacro reversed ++ t) =
      some (clientName reversed t a.canonical) :=
  expand?_client ((c.forClient a).facts domain) reversed ht

/-- **Clients do not share names.** For two clients, the macro for the address and any text without
macros behind it stand for two different names. A mechanism `exists` looks up the name of its own
client alone, and comes to the same whatever is published at the name of the other. -/
theorem existing_separates (c : Check) (domain : String) {a b : Address}
    (hab : a.canonical ≠ b.canonical) {t : String} (ht : '%' ∉ t.toList) (reversed : Bool) :
    let spec := clientMacro reversed ++ t
    ∃ m n, ((c.forClient a).facts domain).expand? spec = some m ∧
      ((c.forClient b).facts domain).expand? spec = some n ∧ m ≠ n ∧
        ∀ recur s, let asked := (c.forClient b).isMatch recur domain (.existing spec) s
          (asked.2.session.history = s.session.history ∨
            asked.2.session.history = .ip n :: s.session.history) ∧
          ∀ (z : Dns.Zone) (value : Address),
            ((c.forClient b).on (z.addAddress m value)).isMatch recur domain (.existing spec) s =
              ((c.forClient b).on z).isMatch recur domain (.existing spec) s := by
  intro spec
  have hm := c.expand?_forClient domain reversed ht a
  have hn := c.expand?_forClient domain reversed ht b
  have hne : clientName reversed t a.canonical ≠ clientName reversed t b.canonical :=
    fun h => hab (clientName_injective h)
  have hkeys : Dns.Zone.key (clientName reversed t a.canonical) ≠
      Dns.Zone.key (clientName reversed t b.canonical) := by
    rw [key_of_expand? hm, key_of_expand? hn]
    exact hne
  exact ⟨_, _, hm, hn, hne, fun recur s => ⟨history_isMatch_existing hn s, fun z value =>
    congrFun (isMatch_existing_addAddress hn z hkeys value) s⟩⟩

/-- A name is published for an IPv4 client, and another one asks, as an IPv4-mapped address. -/
theorem existing_separates_mapped :
    let a : Address := .v4 0xCB007105
    let b : Address := .v6 0xFFFFCB007106
    let t := ".allow.example.com"
    let published := Dns.Zone.empty.addAddress "5.113.0.203.allow.example.com" (.v4 0x7F000002)
    let c : Check := ⟨published.resolver, ⟨0, none⟩, 10, a, "alice", "example.com", ""⟩
    let asked (client : Address) : Except Outcome Bool × State :=
      (c.forClient client).isMatch (fun _ => pure .none) "example.com"
        (.existing (clientMacro true ++ t)) ⟨⟨0, []⟩, 0, []⟩
    a.canonical ≠ b.canonical ∧ '%' ∉ t.toList ∧
      asked a = (.ok true, ⟨⟨0, [.ip "5.113.0.203.allow.example.com"]⟩, 1, []⟩) ∧
      asked b = (.ok false, ⟨⟨0, [.ip "6.113.0.203.allow.example.com"]⟩, 1, []⟩) ∧
      asked b = ((c.forClient b).on .empty).isMatch (fun _ => pure .none) "example.com"
        (.existing (clientMacro true ++ t)) ⟨⟨0, []⟩, 0, []⟩ := by
  intro a b t published c asked
  have hab : a.canonical ≠ b.canonical := by decide
  have ht : '%' ∉ t.toList := by decide
  obtain ⟨m, n, hm, -, -, h⟩ := existing_separates c "example.com" hab ht true
  obtain rfl : m = "5.113.0.203.allow.example.com" :=
    Option.some.inj (hm.symm.trans (by decide +kernel))
  exact ⟨hab, ht, by decide +kernel, by decide +kernel, (h _ _).2 .empty _⟩

end MailScreen.Spf
