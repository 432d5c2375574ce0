import MailScreen.Proofs.Dns.Undisturbed
import MailScreen.Proofs.Spf.Entering
import MailScreen.Proofs.Spf.Following
import MailScreen.Proofs.Spf.Terms

/-!
# Evaluated again

What a check has done before leaves no trace in an evaluation but in the count of terms. A domain
whose policy is evaluated again is evaluated as it was the first time, as long as the limit allows.

* `State.after` is a state before which more lookups were made and more terms counted.
  `evaluation_after`: an evaluation from there on does the same as without them, unless it exceeds
  the limit.
* `Repeats` says that elements of a list are repeated in another one. A policy in which directives
  are repeated (`TextRepeated`) does the same, if the lookups take no time: the evaluations in
  between only use up lookups (`Idles`), and so lead to no more than a `Later` state.
* `follows_check_repeated` is the result for a whole check.
-/

namespace MailScreen.Spf

open Dns (Query Session)

variable {α : Type} {c : Check} {z z' : Dns.Zone}

/-! ## What was done before -/

/-- The state, had these lookups been made before and so many more terms been counted. -/
def State.after (s : State) (earlier : List Query) (n : Nat) : State :=
  ⟨⟨s.session.now, s.session.history ++ earlier⟩, s.counted + n, s.chain⟩

theorem inStep_after (earlier : List Query) (n : Nat) :
    InStep fun s s' => s' = s.after earlier n where
  now h := h ▸ rfl
  chain h := h ▸ rfl
  logged _ _ h := h ▸ rfl
  keepsChains _ _ _ h := h ▸ rfl

theorem zoneRevised_refl {T : String → String → Prop} (hT : ∀ text, T text text) (z : Dns.Zone) :
    ZoneRevised T z z :=
  ⟨List.forall₂_same.mpr fun record _ => ⟨rfl, hT record.2⟩, rfl, rfl, rfl, rfl⟩

theorem leads_after (c : Check) (z : Dns.Zone) (earlier : List Query) (n : Nat) :
    Leads (c.over z) (c.over z) (fun s s' => s' = s.after earlier n) (c.over z).Exceeded Eq := by
  refine leads_of_revised (zoneRevised_refl (fun _ => rfl) z) (fun h => h ▸ rfl) c
    (inStep_after earlier n) (fun h => h.1) (follows_count (fun hs hlimit => ?_) fun hs => ?_)
  · rw [hs] at hlimit
    exact Nat.lt_of_le_of_lt (Nat.le_add_right _ n) hlimit
  · rw [hs, State.after, State.after, Nat.add_right_comm]

/-- **An evaluation does not depend on what was done before**: after more lookups and more counted
terms it comes to the same outcome, counts as many terms and makes the same lookups. It comes to a
permanent error instead only if it exceeds the limit. -/
theorem evaluation_after (c : Check) (z : Dns.Zone) (name : String) (s : State)
    (earlier : List Query) (n : Nat) :
    let evaluated := (c.over z).evaluation name s
    let again := (c.over z).evaluation name (s.after earlier n)
    again.1 = .permError ∧ c.limit < again.2.counted ∨
      again = (evaluated.1, evaluated.2.after earlier n) := by
  intro evaluated again
  exact ((leads_after c z earlier n).evaluate_of_eq (c.limit + 1) name s _ rfl).imp id
    fun h => Prod.ext h.1.symm h.2

/-! ## Lookups that take no time -/

/-- What happens between two states at one instant. -/
structure Idles (s t : State) : Prop extends Proceeds s t where
  now : t.session.now = s.session.now

theorem idles_lookup {q : Query} {ask : List Query → Dns.Response (List α)}
    (hask : ∀ earlier, (ask earlier).delay = 0) (s : State) :
    Idles s (Check.lookup (c.context.resolve q ask) s).2 := by
  refine ⟨proceeds_lookup s, ?_⟩
  show (c.context.resolve q ask s.session).2.now = s.session.now
  rw [Dns.Context.resolve_of_delay_eq_zero (hask s.session.history)]
  split
  · rfl
  · rfl

theorem moves_idles (hz : z.delay = 0) (c : Check) : Moves (c.over z) Idles where
  refl s := ⟨moves_proceeds (c := c).refl s, rfl⟩
  trans h h' := ⟨moves_proceeds (c := c).trans h.toProceeds h'.toProceeds, h'.now.trans h.now⟩
  counted s := ⟨moves_proceeds (c := c).counted s, rfl⟩
  addresses _ := idles_lookup fun _ => hz
  exchanges _ := idles_lookup fun _ => hz
  within domain s t h := ⟨moves_proceeds (c := c).within domain s t h.toProceeds, h.now⟩

theorem idles_evaluate (hz : z.delay = 0) (c : Check) (depth : Nat) (name : String) (s : State) :
    Idles s ((c.over z).evaluate depth name s).2 :=
  (moves_idles hz c).evaluate (fun _ => idles_lookup fun _ => hz) depth name s

/-- The second state is the later one in its check: more lookups were made and more terms
counted. -/
structure Later (s s' : State) : Prop where
  now : s.session.now = s'.session.now
  history : s.session.history.Sublist s'.session.history
  counted : s.counted ≤ s'.counted
  chain : s.chain = s'.chain

theorem inStep_later : InStep Later where
  now h := h.now
  chain h := h.chain
  logged _ q h := ⟨rfl, h.history.cons_cons q, h.counted, h.chain⟩
  keepsChains _ _ f h := ⟨h.now, h.history, h.counted, congrArg f h.chain⟩

/-- What is done at one instant leads to a later state still. -/
theorem Later.of_idles {s s' t : State} (h : Later s s') (ht : Idles s' t) : Later s t where
  now := h.now.trans ht.now.symm
  history := h.history.trans ht.history.sublist
  counted := Nat.le_trans h.counted ht.counted
  chain := h.chain.trans ht.chain.symm

/-! ## Repeated directives -/

/-- The second list is the first one, but that some of the elements for which `p` holds are
repeated. -/
inductive Repeats {α : Type} (p : α → Prop) : List α → List α → Prop
  | nil : Repeats p [] []
  | one (x : α) {xs ys : List α} (h : Repeats p xs ys) : Repeats p (x :: xs) (x :: ys)
  | extra {x : α} {xs ys : List α} (hx : p x) (h : Repeats p (x :: xs) ys) :
      Repeats p (x :: xs) (x :: ys)

theorem Repeats.refl {p : α → Prop} (xs : List α) : Repeats p xs xs := by
  induction xs with
  | nil => exact .nil
  | cons x xs ih => exact .one x ih

theorem Repeats.mem_iff {p : α → Prop} {xs ys : List α} (h : Repeats p xs ys) (a : α) :
    a ∈ ys ↔ a ∈ xs := by
  induction h with
  | nil => exact Iff.rfl
  | one x _ ih => rw [List.mem_cons, List.mem_cons, ih]
  | extra _ _ ih => rw [List.mem_cons, ih, List.mem_cons, or_self_left]

/-- The same text, or a policy and the same policy with some of its directives repeated. -/
inductive TextRepeated : String → String → Prop
  | same (text : String) : TextRepeated text text
  | repeated {text text' : String} {ws ws' : List (List Char)} (hws : writtenTerms? text = some ws)
      (hws' : writtenTerms? text' = some ws') (h : Repeats IsDirective ws ws') :
      TextRepeated text text'

/-- The same policy, but that some directives are repeated. -/
structure Record.Repeated (record record' : Record) : Prop where
  directives : Repeats (fun _ => True) record.directives record'.directives
  redirect : record.redirect = record'.redirect

section Reading

variable {ws ws' : List (List Char)}

theorem Repeats.directives (h : Repeats IsDirective ws ws') :
    Repeats (fun _ => True) (ws.filterMap directiveOf?) (ws'.filterMap directiveOf?) := by
  induction h with
  | nil => exact .nil
  | one word _ ih =>
    rw [List.filterMap_cons, List.filterMap_cons]
    cases directiveOf? word with
    | none => exact ih
    | some d => exact .one d ih
  | @extra word _ _ hword _ ih =>
    obtain ⟨d, hd⟩ := Option.isSome_iff_exists.mp hword
    rw [List.filterMap_cons, hd] at ih ⊢
    rw [List.filterMap_cons, hd]
    exact .extra trivial ih

theorem Repeats.redirects (h : Repeats IsDirective ws ws') :
    ws.filterMap redirectOf? = ws'.filterMap redirectOf? := by
  induction h with
  | nil => rfl
  | one word _ ih => rw [List.filterMap_cons, List.filterMap_cons, ih]
  | extra hword _ ih =>
    rw [ih]
    exact (List.filterMap_cons_none (redirectOf?_of_isDirective hword)).symm

/-- **Repeated directives** are read as such, or the policies are both faulty. -/
theorem Repeats.ofText {text text' : String} (h : Repeats IsDirective ws ws')
    (hws : writtenTerms? text = some ws) (hws' : writtenTerms? text' = some ws') :
    Paired anyFault Record.Repeated (Record.ofText text) (Record.ofText text') := by
  have hterms : (∀ word ∈ ws, IsTerm word) ↔ ∀ word ∈ ws', IsTerm word :=
    forall_congr' fun word => by rw [h.mem_iff word]
  cases hread : Record.ofText text with
  | ok record =>
    obtain ⟨_, hws₁, hread, hdirectives, hredirect⟩ := Record.ofText_eq_ok_iff.mp hread
    obtain rfl := Option.some.inj (hws.symm.trans hws₁)
    have hread' : Record.ofText text' = .ok ⟨ws'.filterMap directiveOf?, record.redirect⟩ :=
      Record.ofText_eq_ok_iff.mpr
        ⟨ws', hws', hterms.mp hread, rfl, hredirect.trans h.redirects⟩
    rw [hread']
    exact .ok ⟨hdirectives ▸ h.directives, rfl⟩
  | error fault =>
    cases hread' : Record.ofText text' with
    | error fault' => exact .error trivial
    | ok record' =>
      -- the terms are the same but for how often they stand there, so the first is read as well
      obtain ⟨_, hws₁, hread', -, hredirect⟩ := Record.ofText_eq_ok_iff.mp hread'
      obtain rfl := Option.some.inj (hws'.symm.trans hws₁)
      have hok : Record.ofText text = .ok ⟨ws.filterMap directiveOf?, record'.redirect⟩ :=
        Record.ofText_eq_ok_iff.mpr
          ⟨ws, hws, hterms.mpr hread', rfl, hredirect.trans h.redirects.symm⟩
      exact absurd (hread.symm.trans hok) nofun

end Reading

theorem ofText_repeated {text text' : String} (h : TextRepeated text text') :
    Paired anyFault Record.Repeated (Record.ofText text) (Record.ofText text') := by
  cases h with
  | same => exact paired_refl (fun _ => trivial) (fun record => ⟨.refl record.directives, rfl⟩) _
  | repeated hws hws' h => exact h.ofText hws hws'

theorem isRecord_repeated {text text' : String} (h : TextRepeated text text') :
    isRecord text = isRecord text' := by
  cases h with
  | same => rfl
  | repeated hws hws' _ => rw [isRecord_eq, isRecord_eq, hws, hws']; rfl

section Evaluating

variable {recur recur' : String → StateM State Outcome} {domain : String}

/-- What stands behind a directive does not matter unless that fails to match. -/
theorem firstMatch_cons_congr {d : Directive} {s : State}
    (h : (c.isMatch recur domain d.mechanism s).1 ≠ .ok false) (ds ds' : List Directive) :
    c.firstMatch recur domain (d :: ds) s = c.firstMatch recur domain (d :: ds') s := by
  unfold Check.firstMatch
  rcases hs : c.isMatch recur domain d.mechanism s with ⟨found | found, t⟩
  · rw [bind_of_error hs, bind_of_error hs]
  · rw [bind_of_ok hs, bind_of_ok hs]
    cases found with
    | true => rfl
    | false => exact absurd (by rw [hs]) h

/-- **A directive that is repeated** does not match if it has not matched before. -/
theorem Leads.firstMatch_repeated {L : Outcome → Nat → Prop} {T : String → String → Prop}
    (h : Leads (c.over z) (c.over z') Later L T) (hz : z'.delay = 0)
    (hrecur : ∀ name, Follows Later L Eq (recur name) (recur' name))
    (hidles : ∀ name s, Idles s (recur' name s).2) {ds ds' : List Directive}
    (hds : Repeats (fun _ => True) ds ds') :
    FollowsPart Later L Eq ((c.over z).firstMatch recur domain ds)
      ((c.over z').firstMatch recur' domain ds') := by
  induction hds with
  | nil => exact follows_pure rfl
  | one d _ ih =>
    refine (h.isMatch hrecur domain d.mechanism).next fun found found' hfound => ?_
    subst hfound
    cases found with
    | true => exact follows_pure rfl
    | false => exact ih
  | @extra d ds ds' _ _ ih =>
    intro s s' hs
    by_cases hfound : ((c.over z').isMatch recur' domain d.mechanism s').1 = .ok false
    · -- what the first of the two leaves behind is no more than a later state
      have hidle : Idles s' ((c.over z').isMatch recur' domain d.mechanism s').2 :=
        (moves_idles hz c).isMatch fun _ name t _ _ => hidles name t
      have hgoesOn := bind_of_ok (Prod.ext hfound rfl) fun found => if found then
        pure (some d.qualifier) else (c.over z').firstMatch recur' domain ds'
      unfold Check.firstMatch
      rw [hgoesOn]
      exact ih s _ (hs.of_idles hidle)
    · rw [firstMatch_cons_congr hfound ds' ds]
      exact h.firstMatch hrecur domain (d :: ds) s s' hs

theorem follows_repeated (hz : ZoneRevised TextRepeated z z') (hdelay : z.delay = 0) (c : Check)
    (name : String) : Follows Later (c.over z').Exceeded Eq ((c.over z).evaluation name)
      ((c.over z').evaluation name) := by
  have hdelay' : z'.delay = 0 := hz.delay ▸ hdelay
  have hleads : Leads (c.over z) (c.over z') Later (c.over z').Exceeded TextRepeated :=
    leads_of_revised hz isRecord_repeated c inStep_later (fun h => h.1)
      (follows_count (fun hs => Nat.lt_of_le_of_lt hs.counted)
        fun hs => ⟨hs.now, hs.history, Nat.succ_le_succ hs.counted, hs.chain⟩)
  refine hleads.evaluate (fun depth hrecur domain text text' htext => ?_) (c.limit + 1) name
  refine (ofText_repeated htext).imp fun record record' hrecord => ?_
  exact hleads.evaluateRecord hrecur domain (hleads.firstMatch_repeated hdelay' hrecur
    (idles_evaluate hdelay' c depth) hrecord.directives) hrecord.redirect

end Evaluating

/-- **Repeating directives** changes nothing but that more lookups may be made, unless a permanent
error comes of it. -/
theorem follows_check_repeated (hz : ZoneRevised TextRepeated z z') (hdelay : z.delay = 0)
    (ctx : Dns.Context) (limit : Nat) (client : Ip.Address) (domain sender helo : String)
    (session : Session) :
    let checked := check z.resolver ctx limit client domain sender helo session
    let checked' := check z'.resolver ctx limit client domain sender helo session
    checked'.1 = .permError ∨
      checked.1 = checked'.1 ∧ checked.2.history.Sublist checked'.2.history := by
  intro checked checked'
  let c := Check.ofArguments z.resolver ctx limit client domain sender helo
  have hstart : Later ⟨session, 0, []⟩ ⟨session, 0, []⟩ := ⟨rfl, .refl _, Nat.le_refl _, rfl⟩
  exact (follows_repeated hz hdelay c (DomainName.normalize domain) _ _ hstart).imp
    (fun h => h.1) fun h => ⟨h.1, h.2.history⟩

end MailScreen.Spf
