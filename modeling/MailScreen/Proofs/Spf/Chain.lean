import MailScreen.Proofs.Spf.Again

/-!
# The chain of policies

Whether a policy leads back to itself is told by the chain of the domains whose policies are being
evaluated. It holds these and no others, so to be evaluated again is no loop.

* `nodup_of_reaches`: no domain is on it twice.
* `permError_of_mem_chain`: to come to a domain on it is a permanent error, of the check as a whole.
* `exists_entry_of_logged`: the policy of a domain is looked up only where the domain is not on the
  chain.
* `chain_exact` puts this together with what is known of evaluations that are repeated.
-/

namespace MailScreen.Spf

open Dns (Query Session)

variable {c : Check} {recur : String → StateM State Outcome} {domain name : String}
  {record : Record} {s t : State} {e e' : Entry}

/-! ## What is on the chain -/

/-- **No domain is on the chain twice.** -/
theorem nodup_of_reaches (he : e.state.chain.Nodup) (h : c.Reaches e e') :
    e'.state.chain.Nodup := by
  induction h with
  | refl => exact he
  | tail _ h ih =>
    obtain ⟨hname, hchain, -⟩ := h.proceeds
    exact hchain ▸ List.nodup_cons.mpr ⟨hname, ih⟩

/-- A domain on the chain is not evaluated. -/
theorem evaluation_of_mem_chain (h : e.name ∈ e.state.chain) :
    c.evaluation e.name e.state = (.permError, e.state) := by
  rw [← unfolding_evaluation, Check.unfolding, outcome_apply, evaluateDomain_apply,
    if_pos (List.contains_iff_mem.mpr h)]
  rfl

/-! ## Permanent errors -/

theorem Check.Includes.firstMatch_fst {ds : List Directive}
    (h : c.Includes recur domain ds s name t) (hlost : (recur name t).1 = .permError) :
    (c.firstMatch recur domain ds s).1 = .error .permError := by
  induction h with
  | @here q spec name ds s t h =>
    have hincluded : c.isMatch recur domain (.included spec) s =
        (.error .permError, (recur name t).2) := by
      rw [isMatch_included, bind_of_ok h, bind_of_ok (lift_apply (recur name) t), hlost]
      rfl
    unfold firstMatch
    rw [bind_of_error hincluded]
  | later h _ ih =>
    unfold firstMatch
    rw [bind_of_ok h]
    exact ih hlost

theorem Check.PolicyEnters.outcome_eq (h : c.PolicyEnters recur domain record s name t)
    (hlost : (recur name t).1 = .permError) :
    outcomeOf (c.evaluateRecord recur domain record s).1 = .permError := by
  unfold evaluateRecord
  cases h with
  | included h => rw [bind_of_error (Prod.ext (h.firstMatch_fst hlost) rfl)]; rfl
  | redirected hfirst hredirect h =>
    rw [bind_of_ok hfirst]
    simp only [hredirect]
    rw [named_bind_redirect, bind_of_ok h, bind_of_ok (lift_apply (recur name) t), hlost]
    rfl

/-- **No policy takes a permanent error for anything else.** -/
theorem Check.Enters.permError (h : c.Enters e e')
    (hlost : (c.evaluation e'.name e'.state).1 = .permError) :
    (c.evaluation e.name e.state).1 = .permError := by
  rw [← unfolding_evaluation]
  obtain @⟨domain, text, name, s, s', t, record, hchain, htext, hrecord, h⟩ := h
  rw [← List.contains_iff_mem] at hchain
  rw [unfolding, outcome_apply, evaluateDomain_apply, if_neg hchain, evaluatePolicy,
    bind_of_ok htext]
  simp only [hrecord, evaluateRead]
  rw [lift_apply, within_apply, outcome_apply]
  exact h.outcome_eq hlost

/-- **To come to a domain on the chain** is a permanent error of the whole evaluation. -/
theorem permError_of_mem_chain (h : c.Reaches e e') (hmem : e'.name ∈ e'.state.chain) :
    (c.evaluation e.name e.state).1 = .permError := by
  induction h using Relation.ReflTransGen.head_induction_on with
  | refl => rw [evaluation_of_mem_chain hmem]
  | head h _ ih => exact h.permError ih

/-! ## Lookups of policies -/

/-- Between two states lookups are only added, and those of texts are made as `Made` says: of this
name, after these lookups. -/
structure Logs (Made : String → List Query → Prop) (s t : State) : Prop where
  grows : s.session.history <:+ t.session.history
  made : ∀ later name earlier, t.session.history = later ++ .txt name :: earlier →
    s.session.history <:+ earlier → Made name earlier

variable {Made : String → List Query → Prop}

theorem Logs.of_eq (h : t.session.history = s.session.history) : Logs Made s t := by
  refine ⟨h ▸ List.suffix_rfl, fun later name earlier hlog hearlier => ?_⟩
  have hlength := hearlier.length_le
  rw [← h, hlog, List.length_append, List.length_cons] at hlength
  omega

theorem Logs.of_cons {q : Query} (h : t.session.history = q :: s.session.history)
    (hq : ∀ name, q = .txt name → Made name s.session.history) : Logs Made s t := by
  refine ⟨h ▸ List.suffix_cons _ _, fun later name earlier hlog hearlier => ?_⟩
  have hlength := hearlier.length_le
  rw [h] at hlog
  cases later with
  | nil =>
    obtain ⟨hname, rfl⟩ := List.cons.inj hlog
    exact hq name hname
  | cons _ later =>
    rw [List.cons_append] at hlog
    rw [(List.cons.inj hlog).2, List.length_append, List.length_cons] at hlength
    omega

theorem Logs.trans {u : State} (h : Logs Made s t) (h' : Logs Made t u) : Logs Made s u := by
  refine ⟨h.grows.trans h'.grows, fun later name earlier hlog hearlier => ?_⟩
  have hsuffix : .txt name :: earlier <:+ u.session.history := ⟨later, hlog.symm⟩
  -- the lookup was made before the state in between, was the last one before it, or came after it
  rcases List.suffix_or_suffix_of_suffix hsuffix h'.grows with ⟨later', hlog'⟩ | hafter
  · exact h.made later' name earlier hlog'.symm hearlier
  · rcases List.suffix_cons_iff.mp hafter with heq | hafter
    · exact h.made [] name earlier heq hearlier
    · exact h'.made later name earlier hlog hafter

theorem logs_lookup {α : Type} {q : Query} {ask : List Query → Dns.Response (List α)} (s : State)
    (hq : ∀ name, q = .txt name → Made name s.session.history) :
    Logs Made s (Check.lookup (c.context.resolve q ask) s).2 := by
  rcases history_resolve c.context q ask s.session with h | h
  · exact .of_eq h
  · exact .of_cons h hq

theorem moves_logs : Moves c (Logs Made) where
  refl _ := .of_eq rfl
  trans := Logs.trans
  counted _ := .of_eq rfl
  addresses _ s := logs_lookup s nofun
  exchanges _ s := logs_lookup s nofun
  within _ _ _ h := ⟨h.grows, h.made⟩

/-- **The policy of a domain is looked up only where the domain is not on the chain.** -/
theorem exists_entry_of_logged {later earlier : List Query}
    (hlog : (c.evaluation e.name e.state).2.session.history = later ++ .txt name :: earlier)
    (hearlier : e.state.session.history <:+ earlier) :
    ∃ s, c.Reaches e ⟨name, s⟩ ∧ s.session.history = earlier ∧ name ∉ s.chain := by
  let Made (name : String) (earlier : List Query) : Prop :=
    ∃ s, c.Reaches e ⟨name, s⟩ ∧ s.session.history = earlier ∧ name ∉ s.chain
  have hlogs : Logs Made e.state (c.evaluation e.name e.state).2 := by
    refine moves_logs.evaluation fun e' h hname => logs_lookup e'.state fun name heq => ?_
    obtain rfl := Query.txt.inj heq
    exact ⟨e'.state, h, rfl, hname⟩
  exact hlogs.made later name earlier hlog hearlier

/-! ## A whole check -/

/-- **The chain is exact.** In a check, a domain is put on it where its policy enters another one,
and no domain is on it twice; an evaluation leaves it as it was; the policy of a domain is looked up
only where the domain is not on it; and to come to a domain on it is a permanent error of the whole
check. A domain that was evaluated before is evaluated as if for the first time, unless more terms
are counted than the limit allows; so with directives repeated, such as an `include`, the outcome
stays what it was, unless it is a permanent error then. -/
theorem chain_exact (z : Dns.Zone) (ctx : Dns.Context) (limit : Nat) (client : Ip.Address)
    (domain sender helo : String) (session : Session) :
    let c := Check.ofArguments z.resolver ctx limit client domain sender helo
    let start : Entry := ⟨DomainName.normalize domain, ⟨session, 0, []⟩⟩
    let checked := check z.resolver ctx limit client domain sender helo session
    (∀ e e', c.Enters e e' → e'.state.chain = e.name :: e.state.chain) ∧
    (∀ e, c.Reaches start e → e.state.chain.Nodup ∧
      (e.name ∉ e.state.chain → (e.name :: e.state.chain).Nodup)) ∧
    (∀ depth name s, (c.evaluate depth name s).2.chain = s.chain) ∧
    (∀ later name earlier, checked.2.history = later ++ .txt name :: earlier →
      session.history <:+ earlier →
        ∃ s, c.Reaches start ⟨name, s⟩ ∧ s.session.history = earlier ∧ name ∉ s.chain) ∧
    (∀ e, c.Reaches start e → e.name ∈ e.state.chain → checked.1 = .permError) ∧
    (∀ name s earlier n,
      let evaluated := c.evaluation name s
      let again := c.evaluation name (s.after earlier n)
      again.1 = .permError ∧ limit < again.2.counted ∨
        again = (evaluated.1, evaluated.2.after earlier n)) ∧
    (∀ z', z.delay = 0 → ZoneRevised TextRepeated z z' →
      let repeated := check z'.resolver ctx limit client domain sender helo session
      repeated.1 ≠ .permError → checked.1 = repeated.1) := by
  intro c start checked
  have hnodup {e : Entry} (h : c.Reaches start e) : e.state.chain.Nodup :=
    nodup_of_reaches List.nodup_nil h
  refine ⟨fun e e' h => h.proceeds.2.1,
    fun e h => ⟨hnodup h, fun hname => List.nodup_cons.mpr ⟨hname, hnodup h⟩⟩, chain_evaluate,
    fun later name earlier => exists_entry_of_logged (c := c) (e := start),
    fun e => permError_of_mem_chain, evaluation_after c z, fun z' hz hrepeated => ?_⟩
  exact (follows_check_repeated hrepeated hz ctx limit client domain sender helo session).elim
    absurd fun h _ => h.1

/-- A policy that includes another one, and then a third one, which includes the other one again and
leads back to the first. Without the loop, an `include` may be there twice. -/
theorem chain_exact_loop :
    let loop := ((Dns.Zone.empty.addText "a.com" "v=spf1 include:b.com include:c.com -all").addText
      "b.com" "v=spf1 -all").addText "c.com" "v=spf1 include:b.com redirect=a.com"
    let zone (text : String) := (Dns.Zone.empty.addText "a.com" text).addText "b.com"
      "v=spf1 exists:h.com -all"
    let z := zone "v=spf1 include:b.com ?all"
    let z' := zone "v=spf1 include:b.com include:b.com ?all"
    let checked (z : Dns.Zone) :=
      check z.resolver ⟨0, none⟩ 10 (.v4 0xCB007105) "a.com" "u@a.com" "" ⟨0, []⟩
    let c := Check.ofArguments loop.resolver ⟨0, none⟩ 10 (.v4 0xCB007105) "a.com" "u@a.com" ""
    let start : Entry := ⟨"a.com", ⟨⟨0, []⟩, 0, []⟩⟩
    let last : Entry := ⟨"a.com",
      ⟨⟨0, [.txt "b.com", .txt "c.com", .txt "b.com", .txt "a.com"]⟩, 4, ["c.com", "a.com"]⟩⟩
    (c.Reaches start last ∧ last.state.chain.Nodup ∧ (checked loop).1 = .permError) ∧
      (∃ s, c.Reaches start ⟨"b.com", s⟩ ∧
        s.session.history = [.txt "c.com", .txt "b.com", .txt "a.com"] ∧ "b.com" ∉ s.chain) ∧
      (ZoneRevised TextRepeated z z' ∧ (checked z').1 = .neutral ∧
        (checked z').1 = (checked z).1) := by
  intro loop zone z z' checked c start last
  have hnormalize : DomainName.normalize "a.com" = "a.com" := by decide +kernel
  let third : Entry := ⟨"c.com", ⟨⟨0, [.txt "b.com", .txt "a.com"]⟩, 2, ["a.com"]⟩⟩
  have hincluded : c.Enters start third := by
    have htext : @Eq (Except Outcome (Option String) × State) (c.policyText "a.com" start.state)
        (.ok (some "v=spf1 include:b.com include:c.com -all"), ⟨⟨0, [.txt "a.com"]⟩, 0, []⟩) := by
      decide +kernel
    have hrecord : Record.ofText "v=spf1 include:b.com include:c.com -all" = .ok
        ⟨[⟨.pass, .included "b.com"⟩, ⟨.pass, .included "c.com"⟩, ⟨.fail, .all⟩], none⟩ := by
      decide +kernel
    have hfirst : @Eq (Except Outcome Bool × State)
        (c.isMatch c.evaluation "a.com" (.included "b.com") ⟨⟨0, [.txt "a.com"]⟩, 0, ["a.com"]⟩)
        (.ok false, ⟨⟨0, [.txt "b.com", .txt "a.com"]⟩, 1, ["a.com"]⟩) := by decide +kernel
    have hname : c.named "a.com" "c.com" ⟨⟨0, [.txt "b.com", .txt "a.com"]⟩, 1, ["a.com"]⟩ =
        (.ok "c.com", third.state) := named_eq_ok_iff.mpr ⟨by decide, by decide +kernel, rfl⟩
    exact .intro (by decide) htext hrecord (.included (.later hfirst (.here hname)))
  have hredirected : c.Enters third last := by
    have htext : @Eq (Except Outcome (Option String) × State) (c.policyText "c.com" third.state)
        (.ok (some "v=spf1 include:b.com redirect=a.com"),
          ⟨⟨0, [.txt "c.com", .txt "b.com", .txt "a.com"]⟩, 2, ["a.com"]⟩) := by decide +kernel
    have hrecord : Record.ofText "v=spf1 include:b.com redirect=a.com" =
        .ok ⟨[⟨.pass, .included "b.com"⟩], some "a.com"⟩ := by decide +kernel
    have hfirst : @Eq (Except Outcome (Option Qualifier) × State)
        (c.firstMatch c.evaluation "c.com" [⟨.pass, .included "b.com"⟩]
          ⟨⟨0, [.txt "c.com", .txt "b.com", .txt "a.com"]⟩, 2, ["c.com", "a.com"]⟩)
        (.ok none, ⟨⟨0, [.txt "b.com", .txt "c.com", .txt "b.com", .txt "a.com"]⟩, 3,
          ["c.com", "a.com"]⟩) := by decide +kernel
    have hname : c.named "c.com" "a.com" ⟨⟨0, [.txt "b.com", .txt "c.com", .txt "b.com",
        .txt "a.com"]⟩, 3, ["c.com", "a.com"]⟩ = (.ok "a.com", last.state) :=
      named_eq_ok_iff.mpr ⟨by decide, by decide +kernel, rfl⟩
    exact .intro (by decide) htext hrecord (.redirected hfirst rfl hname)
  have hreaches : c.Reaches start last := .head hincluded (.single hredirected)
  obtain ⟨-, hnodup, -, hlogged, hlost, -, -⟩ :=
    chain_exact loop ⟨0, none⟩ 10 (.v4 0xCB007105) "a.com" "u@a.com" "" ⟨0, []⟩
  obtain ⟨-, -, -, -, -, -, hrepeated⟩ :=
    chain_exact z ⟨0, none⟩ 10 (.v4 0xCB007105) "a.com" "u@a.com" "" ⟨0, []⟩
  rw [hnormalize] at hnodup hlogged hlost
  have hzones : ZoneRevised TextRepeated z z' := by
    have hdirective : (directiveOf? "include:b.com".toList).isSome = true := by decide +kernel
    have hwords : writtenTerms? "v=spf1 include:b.com ?all" =
        some ["include:b.com".toList, "?all".toList] := by decide +kernel
    have hwords' : writtenTerms? "v=spf1 include:b.com include:b.com ?all" =
        some ["include:b.com".toList, "include:b.com".toList, "?all".toList] := by decide +kernel
    have htext : TextRepeated "v=spf1 include:b.com ?all"
        "v=spf1 include:b.com include:b.com ?all" :=
      .repeated hwords hwords' (.extra hdirective (.refl _))
    exact ⟨.cons ⟨rfl, htext⟩ (.cons ⟨rfl, .same _⟩ .nil), rfl, rfl, rfl, rfl⟩
  have hneutral : (checked z').1 = .neutral := by decide +kernel
  have hlog : (check loop.resolver ⟨0, none⟩ 10 (.v4 0xCB007105) "a.com" "u@a.com" ""
      ⟨0, []⟩).2.history = [] ++ .txt "b.com" :: [.txt "c.com", .txt "b.com", .txt "a.com"] := by
    decide +kernel
  exact ⟨⟨hreaches, (hnodup last hreaches).1, hlost last hreaches (by decide)⟩,
    hlogged [] "b.com" _ hlog List.nil_suffix, hzones, hneutral,
    (hrepeated z' rfl hzones (by rw [hneutral]; decide)).symm⟩

end MailScreen.Spf
