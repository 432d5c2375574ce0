import MailScreen.Proofs.Dkim.SignVerify
import MailScreen.Proofs.Dns.Asking
import Mathlib.Data.List.Induction

/-!
# Which outcome is reported

The signatures of a message are checked one after the other. The first valid one ends that and is
reported. If none is valid, the outcome that tells the most is, and of several such outcomes the one
that was found first.

* `verifyOne_signed`: what is found of a signature is never that there is none.
* `course_verifyOne`: the check of a signature looks up its key, or nothing.
* `mostTelling_telling`: what is kept while no signature is valid is the first of the most telling
  outcomes.
* `exists_checked` tells the signatures that are checked from those that are left, and what is
  reported.
* `getAll_eq`: the signatures are the values of the fields of that name in any letter case.
* `verify_reports` says all of this of a message.
-/

namespace MailScreen.Dkim

open Dns.Session

variable {scheme : Scheme} {ctx : Dns.Context} {r : Dns.Resolver} {now : Int} {m : Mail.Message}
  {text : String}

/-! ## One signature -/

/-- A message that does not fit a signature still has one. -/
theorem judge_ne_none {sig : Signature} {accepts : Acceptance} :
    sig.judge scheme accepts m text ≠ .none := by
  intro h
  unfold Signature.judge at h
  split at h
  · rename_i e he
    exact absurd h (isFault_of_signedBody he).2
  · repeat' split at h
    all_goals cases h

/-- **What is found of a signature** is never that there is none. -/
theorem verifyOne_signed (scheme : Scheme) (ctx : Dns.Context) (r : Dns.Resolver) (now : Int)
    (m : Mail.Message) (text : String) (s : Dns.Session) :
    (verifyOne scheme ctx r now m text s).1.result ≠ .none := by
  cases ht : Tags.ofText text with
  | error fault =>
    rw [verifyOne_of_error ht]
    exact nofun
  | ok t =>
    rw [verifyOne_of_ok ht]
    show (verifyTags scheme ctx r now m text t s).1 ≠ .none
    rcases verifyTags_cases scheme ctx r now m text t s with hfault | ⟨sig, accepts, -, -, hjudge⟩
    · exact hfault.2
    · rw [hjudge]
      exact judge_ne_none

/-- The lookup of the key of a signature, if the signature can be read at a time in seconds. -/
def keyQuery? (now : Int) (text : String) : Option Dns.Query := do
  let t ← (Tags.ofText text).toOption
  let sig ← (Signature.ofTags now t).toOption
  return .txt (keyName sig.selector sig.domain)

/-- A lookup is started, or on a cancelled context it is not. -/
theorem course_look (q : Dns.Query) (s : Dns.Session) :
    ∃ asked, asked.Sublist [q] ∧ Dns.Course ctx r s asked (ctx.look r q s).2 := by
  cases hcancelled : ctx.isCancelled s.now with
  | true =>
    rw [Dns.Context.look_of_isCancelled hcancelled]
    exact ⟨[], List.nil_sublist _, .done s⟩
  | false => exact ⟨[q], List.Sublist.refl _, .look hcancelled (.done _)⟩

/-- **The check of a signature looks up its key**, at most once, and nothing else. -/
theorem course_verifyOne (scheme : Scheme) (ctx : Dns.Context) (r : Dns.Resolver) (now : Int)
    (m : Mail.Message) (text : String) (s : Dns.Session) :
    ∃ asked, asked.Sublist (keyQuery? now text).toList ∧
      Dns.Course ctx r s asked (verifyOne scheme ctx r now m text s).2 := by
  unfold verifyOne keyQuery?
  cases Tags.ofText text with
  | error fault => exact ⟨[], List.nil_sublist _, .done s⟩
  | ok t =>
    simp only
    rw [bind_apply]
    cases hsig : Signature.ofTags now t with
    | error e =>
      unfold verifyTags
      rw [hsig]
      exact ⟨[], List.nil_sublist _, .done s⟩
    | ok sig =>
      rw [verifyTags_eq hsig, fetchKey_eq]
      obtain ⟨asked, hasked, hcourse⟩ := course_look (.txt (keyName sig.selector sig.domain)) s
      exact ⟨asked, by simpa [Except.toOption, hsig] using hasked, hcourse⟩

/-! ## The most telling outcome -/

/-- **An outcome is the first of the most telling ones**: those before it tell less, those after it
tell no more. -/
def MostTelling (outcomes : List Outcome) (o : Outcome) : Prop :=
  ∃ before after, outcomes = before ++ o :: after ∧
    (∀ b ∈ before, b.result.rank < o.result.rank) ∧ ∀ a ∈ after, a.result.rank ≤ o.result.rank

namespace MostTelling

variable {outcomes : List Outcome} {o o' : Outcome}

theorem rank_le (h : MostTelling outcomes o) : ∀ a ∈ outcomes, a.result.rank ≤ o.result.rank := by
  obtain ⟨before, after, rfl, hbefore, hafter⟩ := h
  intro a ha
  rcases List.mem_append.mp ha with ha | ha
  · exact Nat.le_of_lt (hbefore a ha)
  · rcases List.mem_cons.mp ha with rfl | ha
    · exact Nat.le_refl _
    · exact hafter a ha

/-- One that tells no more changes nothing. -/
theorem append_of_le (h : MostTelling outcomes o) (hle : o'.result.rank ≤ o.result.rank) :
    MostTelling (outcomes ++ [o']) o := by
  obtain ⟨before, after, rfl, hbefore, hafter⟩ := h
  refine ⟨before, after ++ [o'], by simp, hbefore, fun a ha => ?_⟩
  rcases List.mem_append.mp ha with ha | ha
  · exact hafter a ha
  · rwa [List.mem_singleton.mp ha]

/-- One that tells more is alone at the top. -/
theorem append_of_lt (h : MostTelling outcomes o) (hlt : o.result.rank < o'.result.rank) :
    MostTelling (outcomes ++ [o']) o' :=
  ⟨outcomes, [], rfl, fun b hb => Nat.lt_of_le_of_lt (h.rank_le b hb) hlt, nofun⟩

end MostTelling

/-- The most telling of some outcomes, after what was the most telling one before. -/
def telling (best : Option Outcome) (outcomes : List Outcome) : Option Outcome :=
  outcomes.foldl (fun best o => some (moreTelling best o)) best

/-- **What is kept of some outcomes** is the first of the most telling ones. -/
theorem mostTelling_telling {outcomes : List Outcome} (hne : outcomes ≠ []) :
    ∃ o, telling none outcomes = some o ∧ MostTelling outcomes o := by
  induction outcomes using List.reverseRecOn with
  | nil => exact absurd rfl hne
  | append_singleton outcomes o ih =>
    have hkept : telling none (outcomes ++ [o]) = some (moreTelling (telling none outcomes) o) :=
      List.foldl_append
    rw [hkept]
    by_cases hfirst : outcomes = []
    · subst hfirst
      exact ⟨o, rfl, [], [], rfl, nofun, nofun⟩
    · obtain ⟨best, hbest, hmost⟩ := ih hfirst
      refine ⟨_, rfl, ?_⟩
      rw [hbest]
      by_cases hle : o.result.rank ≤ best.result.rank
      · simp only [moreTelling, if_pos hle]
        exact hmost.append_of_le hle
      · simp only [moreTelling, if_neg hle]
        exact hmost.append_of_lt (Nat.lt_of_not_le hle)

/-! ## Some signatures -/

/-- **What is reported** after these outcomes when these signatures are left: the last outcome if it
is the only valid one, or with no signature left the first of the most telling ones. -/
inductive IsReported (left : List String) : List Outcome → Outcome → Prop
  | valid {before : List Outcome} {o : Outcome} (hbefore : ∀ b ∈ before, b.isValid = false)
      (ho : o.isValid = true) : IsReported left (before ++ [o]) o
  | telling {outcomes : List Outcome} {o : Outcome} (hleft : left = [])
      (hinvalid : ∀ b ∈ outcomes, b.isValid = false) (ho : MostTelling outcomes o) :
      IsReported left outcomes o
  | unsigned (hleft : left = []) : IsReported left [] .unsigned

/-- What is reported was found, if there was anything to be found. -/
theorem IsReported.mem_or {left : List String} {outcomes : List Outcome} {o : Outcome}
    (h : IsReported left outcomes o) :
    o ∈ outcomes ∨ outcomes = [] ∧ left = [] ∧ o = .unsigned := by
  rcases h with ⟨-, -⟩ | ⟨-, -, ⟨before, after, rfl, -⟩⟩ | hleft
  · exact Or.inl (List.mem_append_right _ List.mem_cons_self)
  · exact Or.inl (List.mem_append_right _ List.mem_cons_self)
  · exact Or.inr ⟨rfl, hleft, rfl⟩

/-- A check ends with the first valid signature, or else with what was kept of all of them. -/
theorem exists_checked_after (check : String → StateM Dns.Session Outcome) (best : Option Outcome)
    (texts : List String) (s : Dns.Session) :
    ∃ checked left outcomes, texts = checked ++ left ∧
      checked.mapM check s = (outcomes, (verifyAll check best texts s).2) ∧
      ((∃ before, outcomes = before ++ [(verifyAll check best texts s).1] ∧
          (∀ b ∈ before, b.isValid = false) ∧ (verifyAll check best texts s).1.isValid = true) ∨
        left = [] ∧ (∀ b ∈ outcomes, b.isValid = false) ∧
          (verifyAll check best texts s).1 = (telling best outcomes).getD .unsigned) := by
  induction texts generalizing best s with
  | nil => exact ⟨[], [], [], rfl, rfl, Or.inr ⟨rfl, nofun, rfl⟩⟩
  | cons text texts ih =>
    by_cases hvalid : (check text s).1.isValid = true
    · rw [verifyAll_of_isValid hvalid]
      exact ⟨[text], texts, [(check text s).1], rfl, by rw [List.mapM_cons]; rfl,
        Or.inl ⟨[], rfl, nofun, hvalid⟩⟩
    · rw [verifyAll, bind_apply, if_neg hvalid]
      obtain ⟨checked, left, outcomes, rfl, hchecked, hreported⟩ :=
        ih (some (moreTelling best (check text s).1)) (check text s).2
      have hmore {os : List Outcome} (hos : ∀ b ∈ os, b.isValid = false) :
          ∀ b ∈ (check text s).1 :: os, b.isValid = false :=
        List.forall_mem_cons.mpr ⟨Bool.eq_false_iff.mpr hvalid, hos⟩
      refine ⟨text :: checked, left, (check text s).1 :: outcomes, rfl, ?_, ?_⟩
      · rw [List.mapM_cons, bind_apply, bind_apply, hchecked]
        rfl
      · rcases hreported with ⟨before, hlast, hbefore, ho⟩ | ⟨hleft, hinvalid, ho⟩
        · exact Or.inl ⟨_ :: before, by rw [hlast]; rfl, hmore hbefore, ho⟩
        · exact Or.inr ⟨hleft, hmore hinvalid, ho⟩

/-- **The signatures up to the first valid one are checked**, in order, and with them the check
ends. -/
theorem exists_checked (check : String → StateM Dns.Session Outcome) (texts : List String)
    (s : Dns.Session) :
    ∃ checked left outcomes, texts = checked ++ left ∧
      checked.mapM check s = (outcomes, (verifyAll check none texts s).2) ∧
      IsReported left outcomes (verifyAll check none texts s).1 := by
  obtain ⟨checked, left, outcomes, htexts, hchecked, hreported⟩ :=
    exists_checked_after check none texts s
  refine ⟨checked, left, outcomes, htexts, hchecked, ?_⟩
  rcases hreported with ⟨before, rfl, hbefore, ho⟩ | ⟨hleft, hinvalid, ho⟩
  · exact .valid hbefore ho
  · rw [ho]
    by_cases hne : outcomes = []
    · subst hne
      exact .unsigned hleft
    · obtain ⟨best, hbest, hmost⟩ := mostTelling_telling hne
      rw [hbest]
      exact .telling hleft hinvalid hmost

/-- **What is checked looks up its keys**, in order, and nothing else. -/
theorem course_mapM (scheme : Scheme) (ctx : Dns.Context) (r : Dns.Resolver) (now : Int)
    (m : Mail.Message) (texts : List String) (s : Dns.Session) :
    ∃ asked, asked.Sublist (texts.filterMap (keyQuery? now)) ∧
      Dns.Course ctx r s asked (texts.mapM (verifyOne scheme ctx r now m) s).2 := by
  induction texts generalizing s with
  | nil => exact ⟨[], List.nil_sublist _, .done s⟩
  | cons text texts ih =>
    obtain ⟨first, hfirst, hcourse⟩ := course_verifyOne scheme ctx r now m text s
    obtain ⟨later, hlater, hcourse'⟩ := ih (verifyOne scheme ctx r now m text s).2
    refine ⟨first ++ later, ?_, ?_⟩
    · have hsplit : (text :: texts).filterMap (keyQuery? now) =
          (keyQuery? now text).toList ++ texts.filterMap (keyQuery? now) := by
        rw [List.filterMap_cons]
        cases keyQuery? now text <;> rfl
      rw [hsplit]
      exact hfirst.append hlater
    · rw [List.mapM_cons, bind_apply, bind_apply]
      exact hcourse.trans hcourse'

/-- Each signature has an outcome, and none of them is that there is no signature. -/
theorem mapM_signed (scheme : Scheme) (ctx : Dns.Context) (r : Dns.Resolver) (now : Int)
    (m : Mail.Message) (texts : List String) (s : Dns.Session) :
    (texts.mapM (verifyOne scheme ctx r now m) s).1.length = texts.length ∧
      ∀ o ∈ (texts.mapM (verifyOne scheme ctx r now m) s).1, o.result ≠ .none := by
  induction texts generalizing s with
  | nil => exact ⟨rfl, nofun⟩
  | cons text texts ih =>
    obtain ⟨hlength, hsigned⟩ := ih (verifyOne scheme ctx r now m text s).2
    rw [List.mapM_cons, bind_apply, bind_apply]
    exact ⟨congrArg (· + 1) hlength,
      List.forall_mem_cons.mpr ⟨verifyOne_signed scheme ctx r now m text s, hsigned⟩⟩

/-! ## A message -/

/-- **The values of a name** are those of the fields whose names differ from it in letter case at
most. -/
theorem getAll_eq (h : Mail.Headers) (name : String) :
    h.getAll name = (h.fields.filter (·.name.toLower = name.toLower)).map (·.value) := by
  have hlower (s : String) : s.toLower.toList = Text.lowerAscii s.toList := String.toList_map
  have hnamed (f : Mail.Field) : f.named name = decide (f.name.toLower = name.toLower) := by
    rw [Bool.eq_iff_iff, decide_eq_true_iff, Mail.Field.named, Text.eqIgnoreCase_iff,
      ← String.toList_inj, hlower, hlower]
  rw [Mail.Headers.getAll, funext hnamed]

/-- **What is reported of a message**, whatever its zone and its context. That there is no signature
is reported just if no field has the name of one, in any letter case. Else of the first five
signatures those up to the first valid one are checked, in order, and only the keys of these are
looked up, each at most once; what is reported is the valid one, or if there is none the first of
the failures that tell the most. -/
theorem verify_reports (scheme : Scheme) (ctx : Dns.Context) (r : Dns.Resolver) (now : Int)
    (m : Mail.Message) (s : Dns.Session) :
    let texts := (m.headers.fields.filter (·.name.toLower = "dkim-signature")).map (·.value)
    let o := (verify scheme ctx r now m s).1
    let s' := (verify scheme ctx r now m s).2
    (o.result = .none ↔ ∀ f ∈ m.headers.fields, f.name.toLower ≠ "dkim-signature") ∧
      (∃ checked left outcomes asked, texts.take 5 = checked ++ left ∧
        checked.mapM (verifyOne scheme ctx r now m) s = (outcomes, s') ∧
        s'.queries = s.queries ++ asked ∧ asked.Sublist (checked.filterMap (keyQuery? now)) ∧
        asked.length ≤ 5 ∧ IsReported left outcomes o) ∧
      Result.permError.rank < Result.tempError.rank ∧
      Result.tempError.rank < Result.fail.rank := by
  intro texts o s'
  have hlower : "dkim-signature".toLower = "dkim-signature" := by decide +kernel
  have hfields : m.headers.getAll "dkim-signature" = texts := by rw [getAll_eq, hlower]
  have hunsigned : texts = [] ↔ ∀ f ∈ m.headers.fields, f.name.toLower ≠ "dkim-signature" := by
    simp [texts]
  obtain ⟨checked, left, outcomes, htexts, hchecked, hreported⟩ :=
    exists_checked (verifyOne scheme ctx r now m) (texts.take maxSignatures) s
  rw [← hfields] at hchecked hreported
  obtain ⟨asked, hasked, hcourse⟩ := course_mapM scheme ctx r now m checked s
  obtain ⟨hlength, hsigned⟩ := mapM_signed scheme ctx r now m checked s
  rw [hchecked] at hcourse hlength hsigned
  have hfive : asked.length ≤ 5 := calc
    asked.length ≤ (checked.filterMap (keyQuery? now)).length := hasked.length_le
    _ ≤ checked.length := List.length_filterMap_le _ _
    _ ≤ (checked ++ left).length := by simp
    _ ≤ 5 := by rw [← htexts]; exact List.length_take_le _ _
  refine ⟨?_, ⟨checked, left, outcomes, asked, htexts, hchecked, hcourse.queries_eq, hasked, hfive,
    hreported⟩, by decide, by decide⟩
  rw [← hunsigned]
  rcases hreported.mem_or with ho | ⟨rfl, rfl, ho⟩
  · refine iff_of_false (hsigned o ho) fun hnone => ?_
    rw [hnone, List.take_nil] at htexts
    rw [List.append_eq_nil_iff.mp htexts.symm |>.1] at hlength
    exact List.ne_nil_of_mem ho (List.length_eq_zero_iff.mp hlength)
  · refine iff_of_true (congrArg Outcome.result ho) ?_
    obtain rfl := List.length_eq_zero_iff.mp hlength.symm
    exact (List.take_eq_nil_iff.mp htexts).resolve_left (by decide)

/-- Signatures under names of different letter case: a malformed one, one whose key cannot be looked
up for now, one that fails and one that is valid. What stands after the valid one is not looked up,
and neither is a valid one in the sixth place. -/
theorem verify_reports_several :
    let signature (d bodyHash : String) :=
      "v=1; a=ed25519-sha256; d=" ++ d ++ "; s=s; h=from; bh=" ++ bodyHash ++ "; b=WQ=="
    let malformed : Mail.Field := ⟨"DKIM-Signature", "v=1; v=1"⟩
    let unanswered : Mail.Field := ⟨"Dkim-Signature", signature "c.com" "Ag=="⟩
    let failing (d : String) : Mail.Field := ⟨"dkim-signature", signature d "AA=="⟩
    let valid : Mail.Field := ⟨"DKIM-SIGNATURE", signature "a.com" "Ag=="⟩
    let signed (fields : List Mail.Field) : Mail.Message := ⟨⟨⟨"From", "<u@a.com>"⟩ :: fields⟩, []⟩
    let key (d : String) := "s._domainkey." ++ d
    let z := ["a.com", "b.com", "d.com"].foldl (fun z d => z.addText (key d) "k=ed25519; p=AQ==")
      (Dns.Zone.empty.addFault (key "c.com") .timeout)
    let report (fields : List Mail.Field) : Outcome × List Dns.Query :=
      (verify .counting ⟨10, none⟩ z.resolver 0 (signed fields) ⟨0, []⟩).map id (·.queries)
    (∀ ctx r s, (verify .counting ctx r 0 (signed []) s).1.result = .none ∧
      (verify .counting ctx r 0 (signed [unanswered]) s).1.result ≠ .none) ∧
    report [malformed, unanswered, failing "b.com", valid, failing "d.com"] =
      (⟨.pass, some "a.com", some "s"⟩,
        [.txt (key "c.com"), .txt (key "b.com"), .txt (key "a.com")]) ∧
    report [malformed, unanswered, failing "b.com", malformed, failing "d.com", valid] =
      (⟨.fail, some "b.com", some "s"⟩,
        [.txt (key "c.com"), .txt (key "b.com"), .txt (key "d.com")]) := by
  intro signature malformed unanswered failing valid signed key z report
  refine ⟨fun ctx r s => ⟨?_, ?_⟩, by decide +kernel, by decide +kernel⟩
  · obtain ⟨hunsigned, -⟩ := verify_reports .counting ctx r 0 (signed []) s
    rw [hunsigned]
    decide +kernel
  · obtain ⟨hunsigned, -⟩ := verify_reports .counting ctx r 0 (signed [unanswered]) s
    rw [ne_eq, hunsigned]
    decide +kernel

end MailScreen.Dkim
