import MailScreen.Proofs.Spf.Entering
import MailScreen.Proofs.Spf.Following
import MailScreen.Proofs.Spf.Terms

/-!
# Terms that make no difference

It does not matter where in a policy terms of the form `name=value` stand, and only `redirect` among
them matters at all. Behind an `all` nothing matters, as it always matches; then a redirect does not
matter either, wherever it stands.

* `ModifiersMoved` and `SameUpToAll` say how the terms of two policies may differ so, `TextRevised`
  how the policies may.
* `firstMatch_append_all`: the directives behind an `all` are never evaluated.
* `ofText_revised`: such policies are read as the same one, or as two that are evaluated alike.
* `check_revised` is the result for a whole check.
-/

namespace MailScreen.Spf

open MailScreen.Text
open Dns (Session)

/-! ## What is revised -/

/-- The name of a term of the form `name=value`. -/
def modifierName? (word : List Char) : Option (List Char) :=
  (cutFirst (· == '=') word).map Prod.fst

/-- Whether a term is of the form `name=value`. -/
def isModifier (word : List Char) : Bool :=
  (modifierName? word).isSome

/-- Whether a term is a redirect, in any letter case. -/
def isRedirect (word : List Char) : Bool :=
  (modifierName? word).any fun name => lowerAscii name == "redirect".toList

/-- Whether the name of a term holds a colon or a slash. -/
def hasMark (word : List Char) : Bool :=
  (modifierName? word).any fun name => name.any fun c => c == ':' || c == '/'

/-- The same terms, but that those of the form `name=value` may have been moved, and all of them but
redirects added or removed. -/
structure ModifiersMoved (ws ws' : List (List Char)) : Prop where
  others : ws.filter (! isModifier ·) = ws'.filter (! isModifier ·)
  redirects : ws.filter isRedirect = ws'.filter isRedirect
  names : ∀ word ∈ ws', hasMark word = false

/-- The same terms up to an `all`, but for those of the form `name=value`. -/
inductive SameUpToAll : List (List Char) → List (List Char) → Prop
  | intro {before before' after after' : List (List Char)} {all : List Char} {q : Qualifier}
      (hbefore : before.filter (! isModifier ·) = before'.filter (! isModifier ·))
      (hall : Term.ofWord all = .ok (.directive ⟨q, .all⟩)) :
      SameUpToAll (before ++ all :: after) (before' ++ all :: after')

/-- The same text, or a policy that can be read with other terms that make no difference. -/
inductive TextRevised : String → String → Prop
  | same (text : String) : TextRevised text text
  | moved {text text' : String} {ws ws' : List (List Char)} {record : Record}
      (hread : Record.ofText text = .ok record) (hws : writtenTerms? text = some ws)
      (hws' : writtenTerms? text' = some ws') (h : ModifiersMoved ws ws') : TextRevised text text'
  | upToAll {text text' : String} {ws ws' : List (List Char)} {record record' : Record}
      (hread : Record.ofText text = .ok record) (hread' : Record.ofText text' = .ok record')
      (hws : writtenTerms? text = some ws) (hws' : writtenTerms? text' = some ws')
      (h : SameUpToAll ws ws') : TextRevised text text'

/-! ## Modifiers -/

variable {word : List Char}

theorem ofWord_of_isModifier (h : isModifier word = true) : ∃ name value,
    modifierName? word = some name ∧ Term.ofWord word = Term.ofModifier word name value := by
  unfold isModifier modifierName? at h
  rw [Option.isSome_map, Option.isSome_iff_exists] at h
  obtain ⟨⟨name, value⟩, hcut⟩ := h
  exact ⟨name, value, by rw [modifierName?, hcut, Option.map_some], by rw [Term.ofWord, hcut]⟩

theorem ofWord_of_not_isModifier (h : isModifier word = false) :
    Term.ofWord word = Term.ofDirective word := by
  unfold isModifier modifierName? at h
  rw [Option.isSome_map, Option.isSome_eq_false_iff, Option.isNone_iff_eq_none] at h
  rw [Term.ofWord, h]

/-- A term without a qualifier or with one is read as a directive, if at all. -/
theorem exists_directive_of_ofDirective {t : Term} (h : Term.ofDirective word = .ok t) :
    ∃ d, t = .directive d := by
  have hmap {q : Qualifier} {read : Except Fault Mechanism}
      (h : (read.map fun m => Term.directive ⟨q, m⟩) = .ok t) : ∃ d, t = .directive d := by
    cases read with
    | error fault => cases h
    | ok m => exact ⟨_, (Except.ok.inj h).symm⟩
  unfold Term.ofDirective at h
  split at h
  · split at h
    · exact hmap h
    · exact hmap h
  · exact hmap h

/-- **A term of the form `name=value`** is no directive. -/
theorem directiveOf?_of_isModifier (h : isModifier word = true) : directiveOf? word = none := by
  obtain ⟨name, value, -, hword⟩ := ofWord_of_isModifier h
  rw [directiveOf?, hword]
  unfold Term.ofModifier
  split
  · rfl
  · split
    · rfl
    · rfl

theorem redirectOf?_of_not_isRedirect (h : isRedirect word = false) : redirectOf? word = none := by
  cases hmodifier : isModifier word with
  | true =>
    obtain ⟨name, value, hname, hword⟩ := ofWord_of_isModifier hmodifier
    rw [isRedirect, hname, Option.any_some, beq_eq_false_iff_ne] at h
    rw [redirectOf?, hword, Term.ofModifier, if_neg h]
    split
    · rfl
    · rfl
  | false =>
    cases hword : Term.ofWord word with
    | error fault => rw [redirectOf?, hword]; rfl
    | ok t =>
      obtain ⟨d, rfl⟩ :=
        exists_directive_of_ofDirective ((ofWord_of_not_isModifier hmodifier).symm.trans hword)
      exact redirectOf?_of_ofWord hword

theorem isTerm_of_isModifier (h : isModifier word = true) (hmark : hasMark word = false) :
    IsTerm word := by
  obtain ⟨name, value, hname, hword⟩ := ofWord_of_isModifier h
  rw [hasMark, hname, Option.any_some] at hmark
  rw [IsTerm, hword, Term.ofModifier, hmark, if_neg Bool.false_ne_true]
  split
  · exact ⟨_, rfl⟩
  · exact ⟨_, rfl⟩

/-- What is left out is not read either. -/
theorem filterMap_filter_of_none {α β : Type} {f : α → Option β} {p : α → Bool} {xs : List α}
    (h : ∀ x, p x = false → f x = none) : (xs.filter p).filterMap f = xs.filterMap f := by
  rw [List.filterMap_filter]
  refine congrArg (List.filterMap · xs) (funext fun x => ?_)
  cases hx : p x with
  | true => rfl
  | false => exact (h x hx).symm

variable {ws ws' : List (List Char)}

theorem filterMap_directiveOf?_eq
    (h : ws.filter (! isModifier ·) = ws'.filter (! isModifier ·)) :
    ws.filterMap directiveOf? = ws'.filterMap directiveOf? := by
  have hnone (word : List Char) (hword : (! isModifier word) = false) : directiveOf? word = none :=
    directiveOf?_of_isModifier (by simpa using hword)
  rw [← filterMap_filter_of_none hnone, h, filterMap_filter_of_none hnone]

theorem filterMap_redirectOf?_eq (h : ws.filter isRedirect = ws'.filter isRedirect) :
    ws.filterMap redirectOf? = ws'.filterMap redirectOf? := by
  have hnone (word : List Char) : isRedirect word = false → redirectOf? word = none :=
    redirectOf?_of_not_isRedirect
  rw [← filterMap_filter_of_none hnone, h, filterMap_filter_of_none hnone]

theorem ModifiersMoved.isTerm (h : ModifiersMoved ws ws') (hws : ∀ word ∈ ws, IsTerm word) :
    ∀ word ∈ ws', IsTerm word := by
  intro word hword
  cases hmodifier : isModifier word with
  | true => exact isTerm_of_isModifier hmodifier (h.names word hword)
  | false =>
    have hother : word ∈ ws'.filter (! isModifier ·) :=
      List.mem_filter.mpr ⟨hword, by rw [hmodifier]; rfl⟩
    rw [← h.others] at hother
    exact hws word (List.mem_of_mem_filter hother)

/-- **Where modifiers stand does not matter**: the policy is read as the same one. -/
theorem ModifiersMoved.ofText_eq (h : ModifiersMoved ws ws') {text text' : String} {record : Record}
    (hread : Record.ofText text = .ok record) (hws : writtenTerms? text = some ws)
    (hws' : writtenTerms? text' = some ws') : Record.ofText text' = .ok record := by
  obtain ⟨_, hws'', hterms, hdirectives, hredirect⟩ := Record.ofText_eq_ok_iff.mp hread
  obtain rfl := Option.some.inj (hws.symm.trans hws'')
  refine Record.ofText_eq_ok_iff.mpr ⟨ws', hws', h.isTerm hterms, ?_, ?_⟩
  · rw [hdirectives, filterMap_directiveOf?_eq h.others]
  · rw [hredirect, filterMap_redirectOf?_eq h.redirects]

/-! ## Behind an `all` -/

variable {c : Check} {recur : String → StateM State Outcome} {domain : String}

/-- **What stands behind an `all` is not evaluated**: if nothing before it matches, it does. -/
theorem firstMatch_append_all (ds tail : List Directive) (q : Qualifier) :
    c.firstMatch recur domain (ds ++ ⟨q, .all⟩ :: tail) =
      c.firstMatch recur domain ds >>= fun found => pure (some (found.getD q)) := by
  induction ds with
  | nil => rfl -- the `all` itself, which matches at once
  | cons d ds ih =>
    rw [List.cons_append]
    unfold Check.firstMatch
    rw [ih, bind_assoc]
    refine congrArg (c.isMatch recur domain d.mechanism >>= ·) (funext fun found => ?_)
    cases found with
    | true => rfl
    | false => rfl

theorem evaluateRecord_of_all {record : Record} {ds tail : List Directive} {q : Qualifier}
    (h : record.directives = ds ++ ⟨q, .all⟩ :: tail) :
    c.evaluateRecord recur domain record =
      c.firstMatch recur domain ds >>= fun found => pure (found.getD q).outcome := by
  unfold Check.evaluateRecord
  rw [h, firstMatch_append_all, bind_assoc]
  rfl

/-- Two policies are evaluated alike. -/
def Record.Interchangeable (record record' : Record) : Prop :=
  ∀ (c : Check) (recur : String → StateM State Outcome) (domain : String),
    c.evaluateRecord recur domain record = c.evaluateRecord recur domain record'

theorem SameUpToAll.interchangeable (h : SameUpToAll ws ws') {record record' : Record}
    (hrecord : record.directives = ws.filterMap directiveOf?)
    (hrecord' : record'.directives = ws'.filterMap directiveOf?) :
    record.Interchangeable record' := by
  obtain @⟨before, before', after, after', all, q, hbefore, hall⟩ := h
  have hdirective : directiveOf? all = some ⟨q, .all⟩ := directiveOf?_of_ofWord hall
  rw [List.filterMap_append, List.filterMap_cons, hdirective] at hrecord hrecord'
  intro c recur domain
  rw [evaluateRecord_of_all hrecord, evaluateRecord_of_all hrecord',
    filterMap_directiveOf?_eq hbefore]

/-! ## Whole policies -/

variable {text text' : String}

theorem isRecord_revised (h : TextRevised text text') : isRecord text = isRecord text' := by
  cases h with
  | same => rfl
  | moved _ hws hws' _ => rw [isRecord_eq, isRecord_eq, hws, hws']; rfl
  | upToAll _ _ hws hws' _ => rw [isRecord_eq, isRecord_eq, hws, hws']; rfl

/-- **A revised policy is evaluated alike.** -/
theorem ofText_revised (h : TextRevised text text') :
    Paired anyFault Record.Interchangeable (Record.ofText text) (Record.ofText text') := by
  cases h with
  | same => exact paired_refl (fun _ => trivial) (fun _ _ _ _ => rfl) _
  | moved hread hws hws' h =>
    rw [hread, h.ofText_eq hread hws hws']
    exact .ok fun _ _ _ => rfl
  | upToAll hread hread' hws hws' h =>
    obtain ⟨_, hws₁, -, hdirectives, -⟩ := Record.ofText_eq_ok_iff.mp hread
    obtain ⟨_, hws₂, -, hdirectives', -⟩ := Record.ofText_eq_ok_iff.mp hread'
    obtain rfl := Option.some.inj (hws.symm.trans hws₁)
    obtain rfl := Option.some.inj (hws'.symm.trans hws₂)
    rw [hread, hread']
    exact .ok (h.interchangeable hdirectives hdirectives')

theorem follows_revised {z z' : Dns.Zone} (h : ZoneRevised TextRevised z z') (c : Check)
    (name : String) :
    Follows Eq (fun _ _ => False) Eq ((c.over z).evaluation name)
      ((c.over z').evaluation name) := by
  have hleads : Leads (c.over z) (c.over z') Eq (fun _ _ => False) TextRevised :=
    leads_of_revised h isRecord_revised c inStep_eq False.elim (follows_self _)
  refine hleads.evaluate (fun depth hrecur domain text text' htext => ?_) (c.limit + 1) name
  refine (ofText_revised htext).imp fun record record' hrecord => ?_
  rw [← hrecord]
  exact hleads.evaluateRecord hrecur domain (hleads.firstMatch hrecur domain _) rfl

/-- **Terms that make no difference make none to a check.** With two zones that are the same but for
such terms of policies, it comes to the same outcome, after the same lookups in the same order. -/
theorem check_revised {z z' : Dns.Zone} (h : ZoneRevised TextRevised z z') (ctx : Dns.Context)
    (limit : Nat) (client : Ip.Address) (domain sender helo : String) (session : Session) :
    check z.resolver ctx limit client domain sender helo session =
      check z'.resolver ctx limit client domain sender helo session := by
  let c := Check.ofArguments z.resolver ctx limit client domain sender helo
  obtain ⟨houtcome, hstate⟩ :=
    (follows_revised h c (DomainName.normalize domain) ⟨session, 0, []⟩ _ rfl).resolve_left id
  exact Prod.ext houtcome (congrArg State.session hstate)

/-- In one policy the redirect is moved to the front and other modifiers are added; in the policy to
which it leads, what stands behind `-all` is replaced, and a redirect put before it. -/
theorem check_revised_redirect :
    let zone (a b : String) : Dns.Zone := (Dns.Zone.empty.addText "a.com" a).addText "b.com" b
    let z := zone "v=spf1 a:h.com redirect=b.com" "v=spf1 mx ?all exists:c.com"
    let z' := zone "v=spf1 redirect=b.com x=y a:h.com exp=e.com" "v=spf1 redirect=c.com mx ?all ptr"
    let checked := check z.resolver ⟨0, none⟩ 10 (.v4 0xCB007105) "a.com" "u@a.com" "" ⟨0, []⟩
    let checked' := check z'.resolver ⟨0, none⟩ 10 (.v4 0xCB007105) "a.com" "u@a.com" "" ⟨0, []⟩
    ZoneRevised TextRevised z z' ∧ checked.1 = .neutral ∧
      checked.2.queries = [.txt "a.com", .ip "h.com", .txt "b.com", .mx "b.com"] ∧
      checked = checked' := by
  intro zone z z' checked checked'
  have hmoved : TextRevised "v=spf1 a:h.com redirect=b.com"
      "v=spf1 redirect=b.com x=y a:h.com exp=e.com" := by
    have hread : Record.ofText "v=spf1 a:h.com redirect=b.com" =
        .ok ⟨[⟨.pass, .address (some "h.com") .whole⟩], some "b.com"⟩ := by decide +kernel
    exact .moved hread rfl rfl ⟨by decide +kernel, by decide +kernel, by decide +kernel⟩
  have hupToAll : TextRevised "v=spf1 mx ?all exists:c.com"
      "v=spf1 redirect=c.com mx ?all ptr" := by
    have hread : Record.ofText "v=spf1 mx ?all exists:c.com" = .ok ⟨[⟨.pass, .exchange none .whole⟩,
        ⟨.neutral, .all⟩, ⟨.pass, .existing "c.com"⟩], none⟩ := by decide +kernel
    have hread' : Record.ofText "v=spf1 redirect=c.com mx ?all ptr" =
        .ok ⟨[⟨.pass, .exchange none .whole⟩, ⟨.neutral, .all⟩, ⟨.pass, .pointer none⟩],
          some "c.com"⟩ := by decide +kernel
    have hterms : SameUpToAll (["mx".toList] ++ "?all".toList :: ["exists:c.com".toList])
        (["redirect=c.com".toList, "mx".toList] ++ "?all".toList :: ["ptr".toList]) :=
      .intro (by decide +kernel) (q := .neutral) (by decide +kernel)
    exact .upToAll hread hread' rfl rfl hterms
  have hzones : ZoneRevised TextRevised z z' :=
    ⟨.cons ⟨rfl, hmoved⟩ (.cons ⟨rfl, hupToAll⟩ .nil), rfl, rfl, rfl, rfl⟩
  have houtcome : checked.1 = .neutral ∧
      checked.2.queries = [.txt "a.com", .ip "h.com", .txt "b.com", .mx "b.com"] := by
    decide +kernel
  exact ⟨hzones, houtcome.1, houtcome.2,
    check_revised hzones ⟨0, none⟩ 10 (.v4 0xCB007105) "a.com" "u@a.com" "" ⟨0, []⟩⟩

end MailScreen.Spf
