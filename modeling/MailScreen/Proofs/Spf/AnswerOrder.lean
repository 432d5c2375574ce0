import Mathlib
import MailScreen.Proofs.Dns.Undisturbed
import MailScreen.Proofs.Spf.LookupBound
import MailScreen.Proofs.Spf.SideBySide

/-!
# The order of answers

Name servers return the records of a name in any order, and a name may have texts that have nothing
to do with policies. Neither makes a difference to what a policy says about a client.

* `Dns.Zone.Shuffled` relates zones that answer at once, with the same policies, addresses and
  hosts in any order.
* `Abreast` relates the states of two evaluations that have come equally far; the lookups that they
  have started may differ, as the hosts of an `mx` may be asked for in another order.
* `anyHostNear_of_prompt`: on such a zone, whether a host is near the client does not depend on the
  order of the hosts.
* `coupled_isMatch`, `coupled_evaluateRecord` and `coupled_evaluate` compare mechanisms, policies
  and whole evaluations; `check_shuffled` is the result for a check.
-/

namespace MailScreen

namespace Dns.Zone

/-- Two zones that answer at once, and at each name with the same policies, addresses and hosts up
to order. Other texts may be at a name of the one and not of the other. -/
structure Shuffled (z z' : Zone) : Prop where
  left : z.IsPrompt
  right : z'.IsPrompt
  texts (name : String) : ((valuesAt z.texts (key name)).filter Spf.isRecord).Perm
    ((valuesAt z'.texts (key name)).filter Spf.isRecord)
  addresses (name : String) :
    (valuesAt z.addresses (key name)).Perm (valuesAt z'.addresses (key name))
  exchanges (name : String) :
    (valuesAt z.exchanges (key name)).Perm (valuesAt z'.exchanges (key name))

theorem filter_valuesAt {α : Type} (p : α → Bool) (records : List (String × α)) (k : String) :
    (valuesAt records k).filter p = valuesAt (records.filter (p ·.2)) k := by
  unfold valuesAt
  rw [List.filter_map, List.filter_filter, List.filter_filter]
  have hboth (x : String × α) : ((p ∘ (·.2)) x && x.1 == k) = (x.1 == k && p x.2) :=
    Bool.and_comm _ _
  simp only [hboth]

theorem valuesAt_perm {α : Type} {records records' : List (String × α)}
    (h : records.Perm records') (k : String) :
    (valuesAt records k).Perm (valuesAt records' k) :=
  (h.filter _).map _

/-- It is enough that the records as a whole are the same up to order. -/
theorem Shuffled.of_perm {z z' : Zone} (left : z.IsPrompt) (right : z'.IsPrompt)
    (htexts : (z.texts.filter (Spf.isRecord ·.2)).Perm (z'.texts.filter (Spf.isRecord ·.2)))
    (haddresses : z.addresses.Perm z'.addresses) (hexchanges : z.exchanges.Perm z'.exchanges) :
    z.Shuffled z' where
  left := left
  right := right
  texts name := by
    rw [filter_valuesAt, filter_valuesAt]
    exact valuesAt_perm htexts _
  addresses _ := valuesAt_perm haddresses _
  exchanges _ := valuesAt_perm hexchanges _

end Dns.Zone

namespace Spf

open Dns (Zone)
open Dns.Zone (valuesAt key)

/-! ## Lookups in a zone that answers at once -/

/-- Two states that have come equally far at the same time, whatever was asked on the way. -/
structure Abreast (s s' : State) : Prop where
  now : s.session.now = s'.session.now
  counted : s.counted = s'.counted
  chain : s.chain = s'.chain

theorem keepsChains_abreast : KeepsChains Abreast :=
  fun _ _ f hs => ⟨hs.now, hs.counted, congrArg f hs.chain⟩

/-- Two results of lookups that are related, or two early ends with the same outcome. -/
abbrev CoupledAbreast {α β : Type} (R : α → β → Prop) (x : Eval α) (y : Eval β) : Prop :=
  CoupledEval Abreast R x y

/-- The same check with the lookups answered by a zone. -/
def Check.on (c : Check) (z : Zone) : Check :=
  { c with resolver := z.resolver }

variable {α : Type} {z z' : Zone} {c : Check}

/-- What a check takes from the answer to a lookup are all the records at the name. -/
theorem answer_of_prompt (hz : z.IsPrompt) (records : List (String × α)) (name : String) :
    Check.answer (z.answer records name) = .ok (valuesAt records (key name)) := by
  rcases hz.answer_eq records name with h | ⟨h, hnil⟩
  · rw [h]
    rfl
  · rw [h, hnil]
    rfl

theorem lookup_of_prompt (hz : z.IsPrompt) (ctx : Dns.Context) (q : Dns.Query)
    (records : List (String × α)) (name : String) (s : State) :
    Check.lookup (ctx.resolve q fun _ => ⟨z.delay, z.answer records name⟩) s =
      if ctx.isCancelled s.session.now then (.error .tempError, s)
      else (.ok (valuesAt records (key name)),
        { s with session := ⟨s.session.now, q :: s.session.history⟩ }) := by
  have hresolve : ctx.resolve q (fun _ => ⟨z.delay, z.answer records name⟩) s.session =
      if ctx.isCancelled s.session.now then (.error .cancelled, s.session)
      else (z.answer records name, ⟨s.session.now, q :: s.session.history⟩) :=
    Dns.Context.resolve_of_delay_eq_zero hz.delay
  unfold Check.lookup
  rw [hresolve]
  by_cases hcancelled : ctx.isCancelled s.session.now = true
  · rw [if_pos hcancelled, if_pos hcancelled]
    rfl
  · rw [if_neg hcancelled, if_neg hcancelled, ← answer_of_prompt hz]

/-- The same lookup in two zones that answer at once. -/
theorem coupled_lookup (hz : z.IsPrompt) (hz' : z'.IsPrompt) {R : List α → List α → Prop}
    {records records' : List (String × α)} {name : String}
    (h : R (valuesAt records (key name)) (valuesAt records' (key name))) (ctx : Dns.Context)
    (q : Dns.Query) :
    CoupledAbreast R
      (Check.lookup (ctx.resolve q fun _ => ⟨z.delay, z.answer records name⟩))
      (Check.lookup (ctx.resolve q fun _ => ⟨z'.delay, z'.answer records' name⟩)) := by
  intro s s' hs
  rw [lookup_of_prompt hz, lookup_of_prompt hz', ← hs.now]
  by_cases hcancelled : ctx.isCancelled s.session.now = true
  · rw [if_pos hcancelled, if_pos hcancelled]
    exact ⟨.error rfl, hs⟩
  · rw [if_neg hcancelled, if_neg hcancelled]
    exact ⟨.ok h, rfl, hs.counted, hs.chain⟩

section Shuffled

variable (hz : z.Shuffled z')

include hz

theorem coupled_addresses (name : String) :
    CoupledAbreast List.Perm ((c.on z).addresses name) ((c.on z').addresses name) :=
  coupled_lookup hz.left hz.right (hz.addresses name) c.context (.ip name)

theorem coupled_exchanges (name : String) :
    CoupledAbreast List.Perm ((c.on z).exchanges name) ((c.on z').exchanges name) :=
  coupled_lookup hz.left hz.right (hz.exchanges name) c.context (.mx name)

/-- **The policy of a domain** does not depend on the order of its texts, nor on texts that are no
policies. -/
theorem coupled_policyText (domain : String) :
    CoupledAbreast Eq ((c.on z).policyText domain) ((c.on z').policyText domain) := by
  unfold Check.policyText
  refine Coupled.bind (R := fun texts texts' => (texts.filter isRecord).Perm
    (texts'.filter isRecord)) (coupled_lookup hz.left hz.right (hz.texts domain) c.context
      (.txt domain)) fun texts texts' hperm => ?_
  revert hperm
  generalize texts.filter isRecord = policies
  generalize texts'.filter isRecord = policies'
  intro hperm
  match policies, policies', hperm, hperm.length_eq with
  | [], [], _, _ => exact coupled_pure rfl
  | [text], [text'], hperm, _ =>
    obtain rfl := List.singleton_perm_singleton.mp hperm
    exact coupled_pure rfl
  | _ :: _ :: _, _ :: _ :: _, _, _ => exact coupled_throw .permError

end Shuffled

/-! ## Hosts -/

/-- Whether an address that a zone has for a host is near the client. -/
def Check.isHostNear (c : Check) (z : Zone) (lengths : Lengths) (x : Dns.Exchange) : Bool :=
  (valuesAt z.addresses (key x.host)).any (Check.isNear c.client lengths)

/-- On a cancelled check the first lookup ends the search. -/
theorem anyHostNear_of_cancelled (hz : z.IsPrompt) {s : State}
    (h : c.context.isCancelled s.session.now = true) (lengths : Lengths) (x : Dns.Exchange)
    (hosts : List Dns.Exchange) :
    (c.on z).anyHostNear lengths (x :: hosts) s = (.error .tempError, s) := by
  have hlookup : (c.on z).addresses x.host s = (.error .tempError, s) :=
    (lookup_of_prompt hz c.context (.ip x.host) z.addresses x.host s).trans (if_pos h)
  exact bind_of_error hlookup _

/-- **Whether a host is near the client** does not depend on the order of the hosts, as no lookup
fails before the search has come to its end. -/
theorem anyHostNear_of_prompt (hz : z.IsPrompt) (lengths : Lengths) (hosts : List Dns.Exchange)
    {s : State} (h : c.context.isCancelled s.session.now = false) :
    ∃ t, (c.on z).anyHostNear lengths hosts s = (.ok (hosts.any (c.isHostNear z lengths)), t) ∧
      Abreast s t := by
  induction hosts generalizing s with
  | nil => exact ⟨s, rfl, rfl, rfl, rfl⟩
  | cons x hosts ih =>
    have hlookup : (c.on z).addresses x.host s = (.ok (valuesAt z.addresses (key x.host)),
        { s with session := ⟨s.session.now, .ip x.host :: s.session.history⟩ }) :=
      (lookup_of_prompt hz c.context (.ip x.host) z.addresses x.host s).trans
        (if_neg (by rw [h]; exact Bool.false_ne_true))
    unfold Check.anyHostNear
    rw [bind_of_ok hlookup, List.any_cons]
    show ∃ t, (if c.isHostNear z lengths x = true then pure true
      else (c.on z).anyHostNear lengths hosts : Eval Bool) _ = _ ∧ _
    by_cases hnear : c.isHostNear z lengths x = true
    · rw [if_pos hnear, hnear]
      exact ⟨_, rfl, rfl, rfl, rfl⟩
    · rw [if_neg hnear, Bool.eq_false_iff.mpr hnear, Bool.false_or]
      let asked : State :=
        { s with session := ⟨s.session.now, .ip x.host :: s.session.history⟩ }
      have hasked : c.context.isCancelled asked.session.now = false := h
      obtain ⟨t, ht, habreast⟩ := ih hasked
      exact ⟨t, ht, habreast.now, habreast.counted, habreast.chain⟩

theorem coupled_anyHostNear (hz : z.Shuffled z') (lengths : Lengths)
    {hosts hosts' : List Dns.Exchange} (hhosts : hosts.Perm hosts') :
    CoupledAbreast Eq ((c.on z).anyHostNear lengths hosts)
      ((c.on z').anyHostNear lengths hosts') := by
  intro s s' hs
  cases hcancelled : c.context.isCancelled s.session.now with
  | true =>
    have hcancelled' : c.context.isCancelled s'.session.now = true := hs.now ▸ hcancelled
    match hosts, hosts', hhosts.length_eq with
    | [], [], _ => exact coupled_pure rfl s s' hs
    | x :: hosts, x' :: hosts', _ =>
      rw [anyHostNear_of_cancelled hz.left hcancelled,
        anyHostNear_of_cancelled hz.right hcancelled']
      exact ⟨.error rfl, hs⟩
  | false =>
    have hcancelled' : c.context.isCancelled s'.session.now = false := hs.now ▸ hcancelled
    obtain ⟨t, ht, habreast⟩ := anyHostNear_of_prompt hz.left lengths hosts hcancelled
    obtain ⟨t', ht', habreast'⟩ := anyHostNear_of_prompt hz.right lengths hosts' hcancelled'
    have hnear : c.isHostNear z lengths = c.isHostNear z' lengths := by
      funext x
      exact (hz.addresses x.host).any_eq
    rw [ht, ht', hnear, hhosts.any_eq]
    exact ⟨.ok rfl, habreast.now.symm.trans (hs.now.trans habreast'.now),
      habreast.counted.symm.trans (hs.counted.trans habreast'.counted),
      habreast.chain.symm.trans (hs.chain.trans habreast'.chain)⟩

/-! ## Policies -/

section Recursion

variable {recur recur' : String → StateM State Outcome} (hz : z.Shuffled z')
  (hrecur : ∀ d, Coupled Abreast Eq (recur d) (recur' d))

theorem coupled_count : CoupledAbreast Eq (c.on z).count (c.on z').count := by
  intro s s' hs
  unfold Check.count Check.on
  simp only [← hs.counted]
  by_cases h : c.limit < s.counted + 1
  · rw [if_pos h, if_pos h]
    exact ⟨.error rfl, hs.now, rfl, hs.chain⟩
  · rw [if_neg h, if_neg h]
    exact ⟨.ok rfl, hs.now, rfl, hs.chain⟩

theorem coupled_expand (domain spec : String) :
    CoupledAbreast Eq ((c.on z).expand domain spec) ((c.on z').expand domain spec) := by
  show CoupledAbreast Eq (c.expand domain spec) (c.expand domain spec)
  unfold Check.expand
  cases (c.facts domain).expand? spec with
  | some name => exact coupled_pure rfl
  | none => exact coupled_throw .permError

theorem coupled_target (domain : String) (spec : Option String) :
    CoupledAbreast Eq ((c.on z).target domain spec) ((c.on z').target domain spec) := by
  cases spec with
  | some spec => exact coupled_expand domain spec
  | none => exact coupled_pure rfl

theorem coupled_includeMatch (o : Outcome) :
    CoupledAbreast Eq (Check.includeMatch o) (Check.includeMatch o) := by
  cases o with
  | pass => exact coupled_pure rfl
  | fail => exact coupled_pure rfl
  | softFail => exact coupled_pure rfl
  | neutral => exact coupled_pure rfl
  | none => exact coupled_throw .permError
  | tempError => exact coupled_throw .tempError
  | permError => exact coupled_throw .permError

include hz hrecur

/-- **A mechanism matches in both zones or in neither.** -/
theorem coupled_isMatch (domain : String) (m : Mechanism) :
    CoupledAbreast Eq ((c.on z).isMatch recur domain m) ((c.on z').isMatch recur' domain m) := by
  cases m with
  | all => exact coupled_pure rfl
  | ip4 net => exact coupled_pure rfl
  | ip6 net => exact coupled_pure rfl
  | pointer spec => exact Coupled.bind coupled_count fun _ _ _ => coupled_pure rfl
  | address spec lengths =>
    refine Coupled.bind coupled_count fun _ _ _ => ?_
    refine Coupled.bind (coupled_target domain spec) fun name _ hname => hname ▸ ?_
    refine Coupled.bind (coupled_addresses hz name) fun found found' hfound => ?_
    exact coupled_pure hfound.any_eq
  | existing spec =>
    refine Coupled.bind coupled_count fun _ _ _ => ?_
    refine Coupled.bind (coupled_expand domain spec) fun name _ hname => hname ▸ ?_
    refine Coupled.bind (coupled_addresses hz name) fun found found' hfound => ?_
    exact coupled_pure (congrArg (! ·) hfound.isEmpty_eq)
  | included spec =>
    refine Coupled.bind coupled_count fun _ _ _ => ?_
    refine Coupled.bind (coupled_expand domain spec) fun name _ hname => hname ▸ ?_
    exact Coupled.bind (hrecur name).lift fun o _ ho => ho ▸ coupled_includeMatch o
  | exchange spec lengths =>
    refine Coupled.bind coupled_count fun _ _ _ => ?_
    refine Coupled.bind (coupled_target domain spec) fun name _ hname => hname ▸ ?_
    refine Coupled.bind (coupled_exchanges hz name) fun hosts hosts' hhosts => ?_
    rw [← hhosts.length_eq]
    by_cases hmany : maxExchanges < hosts.length
    · rw [if_pos hmany, if_pos hmany]
      exact coupled_throw .permError
    · rw [if_neg hmany, if_neg hmany]
      exact coupled_anyHostNear hz lengths
        ((List.mergeSort_perm _ _).trans (hhosts.trans (List.mergeSort_perm _ _).symm))

theorem coupled_firstMatch (domain : String) (ds : List Directive) :
    CoupledAbreast Eq ((c.on z).firstMatch recur domain ds)
      ((c.on z').firstMatch recur' domain ds) := by
  induction ds with
  | nil => exact coupled_pure rfl
  | cons d ds ih =>
    refine Coupled.bind (coupled_isMatch hz hrecur domain d.mechanism) fun found _ hfound =>
      hfound ▸ ?_
    cases found with
    | true => exact coupled_pure rfl
    | false => exact ih

/-- **A policy means the same with both zones.** -/
theorem coupled_evaluateRecord (domain : String) (record : Record) :
    CoupledAbreast Eq ((c.on z).evaluateRecord recur domain record)
      ((c.on z').evaluateRecord recur' domain record) := by
  unfold Check.evaluateRecord
  refine Coupled.bind (coupled_firstMatch hz hrecur domain record.directives) fun found _ hfound =>
    hfound ▸ ?_
  cases found with
  | some q => exact coupled_pure rfl
  | none =>
    cases record.redirect with
    | none => exact coupled_pure rfl
    | some spec =>
      refine Coupled.bind coupled_count fun _ _ _ => ?_
      refine Coupled.bind (coupled_expand domain spec) fun name _ hname => hname ▸ ?_
      exact Coupled.bind (hrecur name).lift fun o _ ho => ho ▸ coupled_pure rfl

theorem coupled_evaluatePolicy (domain : String) :
    CoupledAbreast Eq ((c.on z).evaluatePolicy recur domain)
      ((c.on z').evaluatePolicy recur' domain) := by
  refine Coupled.bind (coupled_policyText hz domain) fun text _ htext => htext ▸ ?_
  cases text with
  | none => exact coupled_pure rfl
  | some text =>
    show CoupledAbreast Eq ((c.on z).evaluateRead recur domain (Record.ofText text))
      ((c.on z').evaluateRead recur' domain (Record.ofText text))
    cases Record.ofText text with
    | error fault => exact coupled_throw .permError
    | ok record =>
      exact (((coupled_evaluateRecord hz hrecur domain record).outcome fun _ => rfl).within
        keepsChains_abreast domain).lift

theorem coupled_evaluateDomain (domain : String) :
    CoupledAbreast Eq ((c.on z).evaluateDomain recur domain)
      ((c.on z').evaluateDomain recur' domain) := by
  intro s s' hs
  rw [evaluateDomain_apply, evaluateDomain_apply, ← hs.chain]
  by_cases h : s.chain.contains domain = true
  · rw [if_pos h, if_pos h]
    exact ⟨.error rfl, hs⟩
  · rw [if_neg h, if_neg h]
    exact coupled_evaluatePolicy hz hrecur domain s s' hs

end Recursion

/-- **An evaluation** comes to the same outcome at any depth. -/
theorem coupled_evaluate (hz : z.Shuffled z') (depth : Nat) (domain : String) :
    Coupled Abreast Eq ((c.on z).evaluate depth domain) ((c.on z').evaluate depth domain) := by
  induction depth generalizing domain with
  | zero => exact fun _ _ hs => ⟨rfl, hs⟩
  | succ depth ih => exact (coupled_evaluateDomain hz ih domain).outcome fun _ => rfl

/-- **A check depends neither on the order of answers nor on unrelated texts.** With two zones that
answer every lookup at once, and at each name with the same policies, addresses and hosts in any
order, a check comes to the same outcome, whatever other texts there are. -/
theorem check_shuffled (h : z.Shuffled z') (ctx : Dns.Context) (limit : Nat) (client : Ip.Address)
    (domain sender helo : String) (session : Dns.Session) :
    (check z.resolver ctx limit client domain sender helo session).1 =
      (check z'.resolver ctx limit client domain sender helo session).1 := by
  let c := Check.ofArguments z.resolver ctx limit client domain sender helo
  let start : State := ⟨session, 0, []⟩
  exact (coupled_evaluate (c := c) h (limit + 1) (DomainName.normalize domain) start start
    ⟨rfl, rfl, rfl⟩).1

/-- Two hosts with the same preference in either order, two addresses in either order, and texts
that are no policies: the lookups differ, the outcome does not. -/
theorem check_shuffled_exchanges :
    let base := Zone.empty.addText "a.com" "v=spf1 mx -all"
    let z := ((((base.addText "a.com" "verification=1").addExchange "a.com" 10
      "x.a.com").addExchange "a.com" 10 "y.a.com").addAddress "y.a.com"
      (.v4 0xCB007105)).addAddress "y.a.com" (.v4 0xCB007106)
    let z' := ((((base.addText "c.com" "verification=2").addExchange "a.com" 10
      "y.a.com").addExchange "a.com" 10 "x.a.com").addAddress "y.a.com"
      (.v4 0xCB007106)).addAddress "y.a.com" (.v4 0xCB007105)
    let checked := check z.resolver ⟨0, none⟩ 10 (.v4 0xCB007105) "a.com" "u@a.com" "" ⟨0, []⟩
    let checked' := check z'.resolver ⟨0, none⟩ 10 (.v4 0xCB007105) "a.com" "u@a.com" "" ⟨0, []⟩
    z.Shuffled z' ∧ checked.1 = checked'.1 ∧
      checked = (.pass, ⟨0, [.ip "y.a.com", .ip "x.a.com", .mx "a.com", .txt "a.com"]⟩) ∧
      checked' = (.pass, ⟨0, [.ip "y.a.com", .mx "a.com", .txt "a.com"]⟩) := by
  refine ⟨?zones, check_shuffled ?zones ⟨0, none⟩ 10 _ "a.com" "u@a.com" "" ⟨0, []⟩, ?runs⟩
  case zones =>
    exact .of_perm ⟨rfl, rfl⟩ ⟨rfl, rfl⟩ (by decide +kernel) (by decide +kernel)
      (by decide +kernel)
  case runs => cbv

end Spf

end MailScreen
