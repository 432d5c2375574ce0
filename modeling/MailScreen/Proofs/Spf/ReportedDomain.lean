import MailScreen.Dns.Zone
import MailScreen.Proofs.DomainName.Settling
import MailScreen.Proofs.Spf.Entering

/-!
# The domain that is reported

A check of a mail transaction reports a domain beside its outcome. The name that the transaction
gives is normalized before that, and the name that is reported is normalized once more before its
policy is looked up. So the two may differ.

* `LooksUpFirst` says of which name the policy is looked up first. `looksUpFirst_evaluate`: an
  evaluation begins with the policy of its own domain, and where it is cancelled before it begins
  it looks up nothing (`evaluate_of_isCancelled`).
* `verify_of_dot`: what is reported is the normal form of the name, if there is a dot in it; else
  there is no check (`verify_of_no_dot`).
* `verify_reports_looked_up_iff`: that is the domain whose policy is looked up, just if there is no
  gap in the name.
-/

namespace MailScreen.Spf

open Dns (Query Session)
open DomainName (normalize gaps)

variable {c : Check} {s s' : Session} {name name' domain : String} {t : State}

/-! ## The first lookup -/

/-- Of the lookups made between two sessions the first one is for the texts at a name. -/
def LooksUpFirst (name : String) (s s' : Session) : Prop :=
  .txt name :: s.history <:+ s'.history

theorem LooksUpFirst.eq (h : LooksUpFirst name s s') (h' : LooksUpFirst name' s s') :
    name = name' := by
  obtain ⟨later, hlater⟩ := h
  obtain ⟨later', hlater'⟩ := h'
  obtain ⟨-, heq⟩ := List.append_inj' (hlater.trans hlater'.symm) rfl
  exact Query.txt.inj (List.cons.inj heq).1

/-- A domain that is not on the chain is evaluated. -/
theorem evaluate_of_not_mem_chain (hchain : domain ∉ t.chain) (depth : Nat) :
    c.evaluate (depth + 1) domain t =
      Check.outcome (c.evaluatePolicy (c.evaluate depth) domain) t := by
  have hdomain : c.evaluateDomain (c.evaluate depth) domain t =
      c.evaluatePolicy (c.evaluate depth) domain t := by
    rw [evaluateDomain_apply, if_neg (by rwa [List.contains_iff_mem])]
  show Check.outcome (c.evaluateDomain (c.evaluate depth) domain) t = _
  rw [outcome_apply, outcome_apply, hdomain]

/-- **An evaluation begins with the policy of its domain.** -/
theorem looksUpFirst_evaluate (hchain : domain ∉ t.chain)
    (hstart : c.context.isCancelled t.session.now = false) (depth : Nat) :
    LooksUpFirst domain t.session (c.evaluate (depth + 1) domain t).2.session := by
  have hlookup : (Check.lookup (c.context.txt c.resolver domain) t).2.session.history =
      .txt domain :: t.session.history := by
    show (c.context.txt c.resolver domain t.session).2.history = _
    rw [Dns.Context.txt, Dns.Context.resolve, if_neg (by rw [hstart]; exact Bool.false_ne_true)]
  have hrest : Proceeds (Check.lookup (c.context.txt c.resolver domain) t).2
      (c.evaluatePolicy (c.evaluate depth) domain t).2 :=
    moves_proceeds.evaluatePolicy fun _ _ name _ t' _ _ _ => proceeds_evaluate depth name t'
  rw [evaluate_of_not_mem_chain hchain, outcome_apply, LooksUpFirst, ← hlookup]
  exact hrest.history

/-- **An evaluation that was cancelled before** looks up nothing. -/
theorem evaluate_of_isCancelled (hchain : domain ∉ t.chain)
    (hstart : c.context.isCancelled t.session.now = true) (depth : Nat) :
    c.evaluate (depth + 1) domain t = (.tempError, t) := by
  have htexts : c.policyText domain t = (.error .tempError, t) := by
    have hlookup : Check.lookup (c.context.txt c.resolver domain) t = (.error .tempError, t) := by
      unfold Check.lookup
      rw [Dns.Context.txt, Dns.Context.resolve, if_pos hstart]
      rfl
    unfold Check.policyText
    rw [bind_of_error hlookup]
  rw [evaluate_of_not_mem_chain hchain, outcome_apply, Check.evaluatePolicy, bind_of_error htexts]
  rfl

/-! ## A mail transaction -/

/-- The name that a mail transaction gives for the domain that is checked: that of the sender, or
for the null sender what the client calls itself. -/
def givenName (sender : Option Mail.Mailbox) (helo : String) : String :=
  match sender with
  | some m => m.domain
  | none => helo

/-- A domain that was read with its mailbox has no gap. -/
theorem gaps_of_ofChars? {cs : List Char} {m : Mail.Mailbox}
    (h : Mail.Mailbox.ofChars? cs = some m) : gaps m.domain = 0 := by
  have hplain := DomainName.normalize_of_isPlain (Mail.Mailbox.isPlain_of_ofChars? h)
  rw [← DomainName.normalize_normalize_iff, hplain, hplain]

variable (r : Dns.Resolver) (ctx : Dns.Context) (limit : Nat) (sender : Option Mail.Mailbox)
  (helo : String) (client : Ip.Address) (session : Session)

theorem identity_snd : (identity sender helo).2 = normalize (givenName sender helo) := by
  cases sender <;> rfl

/-- A name without a dot is not checked. -/
theorem verify_of_no_dot (h : '.' ∉ (normalize (givenName sender helo)).toList) :
    verify r ctx limit sender helo client session = ((.none, none), session) := by
  unfold verify
  simp only [identity_snd]
  rw [if_pos (by simp [h])]
  rfl

/-- **Any other name** is checked and reported in its normal form. -/
theorem verify_of_dot (h : '.' ∈ (normalize (givenName sender helo)).toList) :
    let domain := normalize (givenName sender helo)
    let checked := check r ctx limit client domain ((identity sender helo).1 ++ "@" ++ domain)
      (normalize helo) session
    verify r ctx limit sender helo client session = ((checked.1, some domain), checked.2) := by
  have hname : (normalize (givenName sender helo)).isEmpty = false := by
    refine Bool.eq_false_iff.mpr fun hempty => ?_
    rw [String.isEmpty_iff.mp hempty] at h
    exact absurd h (by decide)
  unfold verify
  simp only [identity_snd]
  rw [if_neg (by simp [hname, h])]
  rfl

variable {session}

/-- A check begins with the policy of the normal form of its domain. -/
theorem looksUpFirst_check (hstart : ctx.isCancelled session.now = false) (domain text : String) :
    LooksUpFirst (normalize domain) session
      (check r ctx limit client domain text helo session).2 := by
  rw [check_eq]
  exact looksUpFirst_evaluate (t := ⟨session, 0, []⟩) List.not_mem_nil hstart limit

theorem check_of_isCancelled (hstart : ctx.isCancelled session.now = true) (domain text : String) :
    check r ctx limit client domain text helo session = (.tempError, session) := by
  rw [check_eq]
  have hevaluate : (Check.ofArguments r ctx limit client domain text helo).evaluate (limit + 1)
      (normalize domain) ⟨session, 0, []⟩ = (.tempError, ⟨session, 0, []⟩) :=
    evaluate_of_isCancelled List.not_mem_nil hstart limit
  exact congrArg (fun evaluated => (evaluated.1, evaluated.2.session)) hevaluate

variable (session)

/-- **The domain that is reported is the one whose policy is looked up** just if the name that the
mail transaction gives has no gap. For these are the names that one normalization settles; a name
with `n` gaps takes `n` more. The domain of a mailbox that was read has no gap, but what the client
calls itself may have some. -/
theorem verify_reports_looked_up_iff :
    (∀ s, normalize (normalize s) = normalize s ↔ gaps s = 0) ∧
    (∀ s n, normalize^[n + 2] s = normalize^[n + 1] s ↔ gaps s ≤ n) ∧
    (∀ cs m, Mail.Mailbox.ofChars? cs = some m → gaps m.domain = 0) ∧
    let name := givenName sender helo
    let domain := normalize name
    let verified := verify r ctx limit sender helo client session
    ('.' ∉ domain.toList → verified = ((.none, none), session)) ∧
    ('.' ∈ domain.toList → verified.1.2 = some domain ∧
      (ctx.isCancelled session.now = true → verified = ((.tempError, some domain), session)) ∧
      (ctx.isCancelled session.now = false →
        LooksUpFirst (normalize domain) session verified.2 ∧
        (LooksUpFirst domain session verified.2 ↔ gaps name = 0))) := by
  refine ⟨DomainName.normalize_normalize_iff, DomainName.iterate_normalize_iff,
    fun cs m => gaps_of_ofChars?, ?_⟩
  intro name domain verified
  refine ⟨verify_of_no_dot r ctx limit sender helo client session, fun hdot => ?_⟩
  obtain ⟨text, hverified⟩ : ∃ text, verified =
      (((check r ctx limit client domain text (normalize helo) session).1, some domain),
        (check r ctx limit client domain text (normalize helo) session).2) :=
    ⟨_, verify_of_dot r ctx limit sender helo client session hdot⟩
  rw [hverified]
  refine ⟨rfl, fun hstart => ?_, fun hstart => ?_⟩
  · rw [check_of_isCancelled r ctx limit _ client hstart]
  · have hfirst := looksUpFirst_check r ctx limit (normalize helo) client hstart domain text
    rw [← DomainName.normalize_normalize_iff]
    refine ⟨hfirst, hfirst.eq, fun hsame => ?_⟩
    rwa [hsame] at hfirst

/-- A name without a gap, although there are blanks around it and dots at its end; and one with two
gaps. -/
theorem verify_reports_looked_up_iff_gaps :
    let z := Dns.Zone.empty.addText "a.com" "v=spf1 -all"
    let verified := verify z.resolver ⟨0, none⟩ 10 none "\u3000A.com.. " (.v4 0xCB007105) ⟨0, []⟩
    (gaps "\u3000A.com.. " = 0 ∧ verified.1 = (.fail, some "a.com") ∧
      LooksUpFirst "a.com" ⟨0, []⟩ verified.2) ∧
    gaps "a.com . ." = 2 ∧ normalize^[3] "a.com . ." ≠ normalize^[2] "a.com . ." ∧
      normalize^[4] "a.com . ." = normalize^[3] "a.com . ." := by
  intro z verified
  obtain ⟨-, hrests, -, -, hreported⟩ := verify_reports_looked_up_iff z.resolver ⟨0, none⟩ 10 none
    "\u3000A.com.. " (.v4 0xCB007105) ⟨0, []⟩
  have hname : normalize "\u3000A.com.. " = "a.com" := by decide +kernel
  have hgaps : gaps "a.com . ." = 2 := by decide +kernel
  have hnone : gaps "\u3000A.com.. " = 0 := by decide +kernel
  have houtcome : verified.1 = (.fail, some "a.com") := by decide +kernel
  refine ⟨⟨hnone, houtcome, ?_⟩, hgaps, ?_, (hrests _ 2).mpr (by omega)⟩
  · obtain ⟨-, -, hlooked⟩ := hreported (by decide +kernel)
    have hfirst := (hlooked rfl).2.mpr hnone
    rwa [givenName, hname] at hfirst
  · exact fun h => absurd ((hrests "a.com . ." 1).mp h) (by omega)

/-- A name that the client gives itself, with a gap: the policy of one name is looked up, and
another name is reported, which has a policy of its own. -/
theorem not_verify_reports_looked_up :
    let z := (Dns.Zone.empty.addText "a.com" "v=spf1 -all").addText "a.com. " "v=spf1 +all"
    let verified := verify z.resolver ⟨0, none⟩ 10 none "a.com. ." (.v4 0xCB007105) ⟨0, []⟩
    normalize (normalize "a.com. .") ≠ normalize "a.com. ." ∧
      verified.1 = (.fail, some "a.com. ") ∧ LooksUpFirst "a.com" ⟨0, []⟩ verified.2 ∧
      ¬ LooksUpFirst "a.com. " ⟨0, []⟩ verified.2 := by
  intro z verified
  have hfirst : LooksUpFirst "a.com" ⟨0, []⟩ verified.2 := ⟨[], by decide +kernel⟩
  refine ⟨by decide +kernel, by decide +kernel, hfirst, fun h => ?_⟩
  exact absurd (hfirst.eq h) (by decide)

end MailScreen.Spf
