import MailScreen.Dns.Context
import MailScreen.Dns.Zone
import Mathlib.Data.List.Forall2

/-!
# Inquiries

Whatever a check wants to know from a resolver it must ask for, one lookup after the other, and what
it does next depends on how the lookups before have ended. Here that is a tree, which says nothing
of any resolver, clock or deadline.

* `Context.look_related` compares one lookup with two resolvers, `Zone.answer_related` the answers
  of two zones.
* `Inquiry` is the tree, `Inquiry.run` does its lookups in a context, and `Inquiry.log` lists them
  with the errors they ended in; `Inquiry.transcript` with all that they gave. A lookup that the
  context refuses to start is listed too.
* `Inquiry.eq_of_run_eq`: an inquiry is determined by what it does. So if a check does what some
  inquiry does, the log is that of the check.
* `Inquiry.GivesUp` is the form of an inquiry that ends at the first lookup that fails for now, with
  a result that says so. `Inquiry.GivesUp.result_iff`, `Inquiry.GivesUp.not_transient` read that off
  the log.
-/

namespace MailScreen.Dns

/-! ## Lookups of any kind -/

/-- What a lookup gives if it succeeds. -/
def Query.Records : Query → Type
  | .txt _ => List String
  | .ip _ => List Ip.Address
  | .mx _ => List Exchange

/-- What a resolver responds to a lookup after those made before, newest first. -/
def Resolver.respond (r : Resolver) : (q : Query) → List Query → Response q.Records
  | .txt name, earlier => r.txt earlier name
  | .ip name, earlier => r.ip earlier name
  | .mx name, earlier => r.mx earlier name

/-- Does a lookup of any kind. -/
def Context.look (ctx : Context) (r : Resolver) (q : Query) :
    StateM Session (Except LookupError q.Records) :=
  ctx.resolve q (r.respond q)

variable {ctx : Context} {r r' : Resolver} {q : Query} {s : Session}

theorem Context.look_of_isCancelled (h : ctx.isCancelled s.now = true) :
    ctx.look r q s = (.error .cancelled, s) :=
  if_pos h

theorem Context.look_of_not_isCancelled (h : ctx.isCancelled s.now = false) :
    ctx.look r q s = ((ctx.await s.now (r.respond q s.history)).1,
      ⟨(ctx.await s.now (r.respond q s.history)).2, q :: s.history⟩) :=
  if_neg (by rw [h]; exact Bool.false_ne_true)

/-- Lookups are only added. -/
theorem Context.history_suffix_look : s.history <:+ (ctx.look r q s).2.history := by
  unfold look resolve
  split
  · exact List.suffix_rfl
  · exact List.suffix_cons q s.history

/-! ## Two resolvers side by side -/

/-- Two responses that take the same time are awaited until the same instant; and if the answers are
related, what they come to is related too. -/
theorem Context.await_related {α β : Type}
    {R : Except LookupError α → Except LookupError β → Prop} (hR : ∀ e, R (.error e) (.error e))
    {a : Response α} {b : Response β} (hdelay : a.delay = b.delay) (hanswer : R a.answer b.answer)
    (now : Int) :
    R (ctx.await now a).1 (ctx.await now b).1 ∧ (ctx.await now a).2 = (ctx.await now b).2 := by
  unfold await
  rw [← hdelay]
  simp only
  split
  · exact ⟨hanswer, rfl⟩
  · split
    · exact ⟨hanswer, rfl⟩
    · split
      · exact ⟨hR .timeout, rfl⟩
      · exact ⟨hR .cancelled, rfl⟩

/-- The same lookup with two resolvers that respond to it in the same time. -/
theorem Context.look_related
    {R : Except LookupError q.Records → Except LookupError q.Records → Prop}
    (hR : ∀ e, R (.error e) (.error e))
    (hdelay : (r.respond q s.history).delay = (r'.respond q s.history).delay)
    (hanswer : R (r.respond q s.history).answer (r'.respond q s.history).answer) :
    R (ctx.look r q s).1 (ctx.look r' q s).1 ∧ (ctx.look r q s).2 = (ctx.look r' q s).2 := by
  cases h : ctx.isCancelled s.now with
  | true =>
    rw [look_of_isCancelled h, look_of_isCancelled h]
    exact ⟨hR .cancelled, rfl⟩
  | false =>
    rw [look_of_not_isCancelled h, look_of_not_isCancelled h]
    obtain ⟨hcome, hnow⟩ := ctx.await_related hR hdelay hanswer s.now
    exact ⟨hcome, by rw [hnow]⟩

/-- Two zones that fail at the same names, with records of which each is related to its counterpart
under the same name. -/
theorem Zone.answer_related {α : Type} {A : α → α → Prop}
    {R : Except LookupError (List α) → Except LookupError (List α) → Prop}
    (herror : ∀ e, R (.error e) (.error e))
    (hok : ∀ values values', List.Forall₂ A values values' → R (.ok values) (.ok values'))
    {z z' : Zone} (hfaults : z.faults = z'.faults) {records records' : List (String × α)}
    (hrecords : List.Forall₂ (fun a b => a.1 = b.1 ∧ A a.2 b.2) records records') (name : String) :
    R (z.answer records name) (z'.answer records' name) := by
  have hvalues : List.Forall₂ A (valuesAt records (key name)) (valuesAt records' (key name)) := by
    refine List.rel_map (fun _ _ h => h.2) (List.rel_filter (fun a b h => ?_) hrecords)
    simp only [h.1]
  unfold answer
  rw [← hfaults]
  cases z.faults.lookup (key name) with
  | some e => exact herror e
  | none =>
    revert hvalues
    generalize valuesAt records (key name) = values
    generalize valuesAt records' (key name) = values'
    intro hvalues
    cases hvalues with
    | nil => exact herror .notFound
    | cons hvalue hrest => exact hok _ _ (.cons hvalue hrest)

/-! ## Inquiries -/

/-- A computation that can do nothing but lookups: it is done, or it asks and goes on by what comes
of that. -/
inductive Inquiry (α : Type) where
  | done (a : α)
  | ask (q : Query) (next : Except LookupError q.Records → Inquiry α)

/-- A lookup that was made, and the error that it ended in if it did. -/
structure Attempt where
  query : Query
  error : Option LookupError
  deriving Repr, DecidableEq

/-- Whether the lookup failed, and not because there are no records. -/
def Attempt.isTransient (a : Attempt) : Bool :=
  a.error.any (·.isTransient)

/-- The error that a lookup ended in. -/
def errorOf? {α : Type} : Except LookupError α → Option LookupError
  | .ok _ => none
  | .error e => some e

/-- Whether a lookup failed for now. -/
def isTransientError {α : Type} (answer : Except LookupError α) : Bool :=
  (errorOf? answer).any (·.isTransient)

namespace Inquiry

variable {α β : Type}

/-- The second of two inquiries goes on by the result of the first. -/
def bind (f : α → Inquiry β) : Inquiry α → Inquiry β
  | done a => f a
  | ask q next => ask q fun answer => (next answer).bind f

/-- Makes the lookups. -/
def run (ctx : Context) (r : Resolver) : Inquiry α → StateM Session α
  | done a => pure a
  | ask q next => ctx.look r q >>= fun answer => (next answer).run ctx r

/-- The lookups that are made, in order. -/
def log (ctx : Context) (r : Resolver) : Inquiry α → Session → List Attempt
  | done _, _ => []
  | ask q next, s =>
    let (answer, s') := ctx.look r q s
    ⟨q, errorOf? answer⟩ :: (next answer).log ctx r s'

/-- The lookups that are made, in order, with what they give. -/
def transcript (ctx : Context) (r : Resolver) :
    Inquiry α → Session → List (Σ q : Query, Except LookupError q.Records)
  | done _, _ => []
  | ask q next, s =>
    let (answer, s') := ctx.look r q s
    ⟨q, answer⟩ :: (next answer).transcript ctx r s'

theorem run_done (a : α) (s : Session) : (done a).run ctx r s = (a, s) := rfl

theorem run_ask (next : Except LookupError q.Records → Inquiry α) (s : Session) :
    (ask q next).run ctx r s =
      (next (ctx.look r q s).1).run ctx r (ctx.look r q s).2 := rfl

theorem log_ask (next : Except LookupError q.Records → Inquiry α) (s : Session) :
    (ask q next).log ctx r s = ⟨q, errorOf? (ctx.look r q s).1⟩ ::
      (next (ctx.look r q s).1).log ctx r (ctx.look r q s).2 := rfl

theorem run_bind (p : Inquiry α) (f : α → Inquiry β) (s : Session) :
    (p.bind f).run ctx r s = (f (p.run ctx r s).1).run ctx r (p.run ctx r s).2 := by
  induction p generalizing s with
  | done a => rfl
  | ask q next ih => exact ih (ctx.look r q s).1 (ctx.look r q s).2

/-- Lookups are only added. -/
theorem history_suffix_run (p : Inquiry α) (s : Session) :
    s.history <:+ (p.run ctx r s).2.history := by
  induction p generalizing s with
  | done a => exact List.suffix_rfl
  | ask q next ih =>
    exact Context.history_suffix_look.trans (ih (ctx.look r q s).1 (ctx.look r q s).2)

/-! ## An inquiry is what it does -/

end Inquiry

/-- The resolver that responds in this way. -/
def Resolver.ofRespond (f : (q : Query) → List Query → Response q.Records) : Resolver where
  txt earlier name := f (.txt name) earlier
  ip earlier name := f (.ip name) earlier
  mx earlier name := f (.mx name) earlier

theorem Resolver.respond_ofRespond (f : (q : Query) → List Query → Response q.Records) (q : Query)
    (earlier : List Query) : (ofRespond f).respond q earlier = f q earlier := by
  cases q <;> rfl

/-- The same resolver but for one lookup after certain others, which it answers at once. -/
def Resolver.answering (r : Resolver) (q : Query) (earlier : List Query)
    (answer : Except LookupError q.Records) : Resolver :=
  .ofRespond fun q' earlier' =>
    if h : q = q' ∧ earlier = earlier' then ⟨0, h.1 ▸ answer⟩ else r.respond q' earlier'

theorem Resolver.respond_answering_self (answer : Except LookupError q.Records)
    (earlier : List Query) : (r.answering q earlier answer).respond q earlier = ⟨0, answer⟩ := by
  rw [answering, respond_ofRespond, dif_pos ⟨rfl, rfl⟩]

theorem Resolver.respond_answering_of_ne {earlier earlier' : List Query} (h : earlier ≠ earlier')
    (answer : Except LookupError q.Records) (q' : Query) :
    (r.answering q earlier answer).respond q' earlier' = r.respond q' earlier' := by
  rw [answering, respond_ofRespond, dif_neg fun he => h he.2]

namespace Inquiry

variable {α : Type}

/-- What a resolver would have responded to fewer lookups does not matter. -/
theorem run_congr {k : Nat}
    (h : ∀ q earlier, k ≤ earlier.length → r.respond q earlier = r'.respond q earlier)
    (p : Inquiry α) (s : Session) (hs : k ≤ s.history.length) :
    p.run ctx r s = p.run ctx r' s := by
  induction p generalizing s with
  | done a => rfl
  | ask q next ih =>
    have hlook : ctx.look r q s = ctx.look r' q s := by
      unfold Context.look Context.resolve
      rw [h q s.history hs]
    rw [run_ask, run_ask, hlook]
    exact ih _ _ (Nat.le_trans hs Context.history_suffix_look.length_le)

/-- A context that is never cancelled. -/
def uncancelled : Context := ⟨0, none⟩

theorem history_run_ask (next : Except LookupError q.Records → Inquiry α) (h : List Query) :
    q :: h <:+ ((ask q next).run uncancelled r ⟨0, h⟩).2.history := by
  have hlook : (uncancelled.look r q ⟨0, h⟩).2.history = q :: h := by
    rw [Context.look_of_not_isCancelled rfl]
  rw [run_ask, ← hlook]
  exact history_suffix_run _ _

theorem run_ask_answering (next : Except LookupError q.Records → Inquiry α) (h : List Query)
    (answer : Except LookupError q.Records) :
    (ask q next).run uncancelled (r.answering q h answer) ⟨0, h⟩ =
      (next answer).run uncancelled r ⟨0, q :: h⟩ := by
  have hlook : uncancelled.look (r.answering q h answer) q ⟨0, h⟩ = (answer, ⟨0, q :: h⟩) := by
    rw [Context.look_of_not_isCancelled rfl, Resolver.respond_answering_self]
    rfl
  rw [run_ask, hlook]
  refine run_congr (k := h.length + 1) (fun q' earlier hlong => ?_) _ _ (Nat.le_refl _)
  apply Resolver.respond_answering_of_ne
  rintro rfl
  exact absurd hlong (Nat.not_succ_le_self _)

theorem append_cons_ne_self {h : List Query} (later : List Query) : later ++ q :: h ≠ h := by
  intro heq
  have hlength := congrArg List.length heq
  rw [List.length_append, List.length_cons] at hlength
  omega

theorem eq_of_run_uncancelled {p p' : Inquiry α} {h : List Query}
    (heq : ∀ r, p.run uncancelled r ⟨0, h⟩ = p'.run uncancelled r ⟨0, h⟩) : p = p' := by
  induction p generalizing p' h with
  | done a =>
    cases p' with
    | done a' => exact congrArg done (congrArg Prod.fst (heq (.unreachable "")))
    | ask q' next' =>
      obtain ⟨later, hlater⟩ := history_run_ask (r := .unreachable "") next' h
      rw [← heq, run_done] at hlater
      exact absurd hlater (append_cons_ne_self later)
  | ask q next ih =>
    obtain ⟨later, hlater⟩ := history_run_ask (r := .unreachable "") next h
    cases p' with
    | done a' =>
      rw [heq, run_done] at hlater
      exact absurd hlater (append_cons_ne_self later)
    | ask q' next' =>
      obtain ⟨later', hlater'⟩ := history_run_ask (r := .unreachable "") next' h
      rw [← heq] at hlater'
      obtain ⟨-, hqueries⟩ := List.append_inj' (hlater.trans hlater'.symm) rfl
      obtain rfl : q = q' := (List.cons.inj hqueries).1
      congr 1
      funext answer
      apply ih answer
      intro r
      rw [← run_ask_answering, ← run_ask_answering]
      exact heq (r.answering q h answer)

/-- **An inquiry is determined by what it does** with all resolvers in all contexts. -/
theorem eq_of_run_eq {p p' : Inquiry α} (h : ∀ r ctx, p.run ctx r = p'.run ctx r) : p = p' :=
  eq_of_run_uncancelled (h := []) fun r => congrFun (h r uncancelled) ⟨0, []⟩

/-! ## Inquiries that give up -/

/-- The inquiry ends with the first lookup that fails for now, and its result is then of a certain
kind; otherwise it is not. -/
inductive GivesUp (kind : α → Prop) : Inquiry α → Prop
  | done {a : α} (h : ¬ kind a) : GivesUp kind (done a)
  | ask {q : Query} {next : Except LookupError q.Records → Inquiry α}
      (hends : ∀ answer, isTransientError answer = true → ∃ a, kind a ∧ next answer = .done a)
      (hgoesOn : ∀ answer, isTransientError answer = false → GivesUp kind (next answer)) :
      GivesUp kind (ask q next)

/-- An inquiry that goes on after another one must not go on after a result of that kind. -/
theorem GivesUp.bind {β : Type} {kind : α → Prop} {kind' : β → Prop} {p : Inquiry α}
    {f : α → Inquiry β} (hp : p.GivesUp kind)
    (hends : ∀ a, kind a → ∃ b, kind' b ∧ f a = .done b)
    (hgoesOn : ∀ a, ¬ kind a → (f a).GivesUp kind') : (p.bind f).GivesUp kind' := by
  induction hp with
  | done h => exact hgoesOn _ h
  | ask hfails _ ih =>
    refine GivesUp.ask (fun answer hanswer => ?_) ih
    obtain ⟨a, ha, hnext⟩ := hfails answer hanswer
    obtain ⟨b, hb, hfa⟩ := hends a ha
    refine ⟨b, hb, ?_⟩
    rw [hnext]
    exact hfa

variable {kind : α → Prop} {p : Inquiry α}

/-- Either no lookup failed for now, or the last one did and no other; and the result says which. -/
theorem GivesUp.run_log (hp : p.GivesUp kind) (ctx : Context) (r : Resolver) (s : Session) :
    (¬ kind (p.run ctx r s).1 ∧ ∀ a ∈ p.log ctx r s, a.isTransient = false) ∨
      (kind (p.run ctx r s).1 ∧ ∃ before last, p.log ctx r s = before ++ [last] ∧
        last.isTransient = true ∧ ∀ a ∈ before, a.isTransient = false) := by
  induction hp generalizing s with
  | done h => exact Or.inl ⟨h, nofun⟩
  | ask hends _ ih =>
    rename_i q next _
    rw [run_ask, log_ask]
    cases hanswer : isTransientError (ctx.look r q s).1 with
    | true =>
      obtain ⟨a, ha, hnext⟩ := hends _ hanswer
      rw [hnext]
      exact Or.inr ⟨ha, [], _, rfl, hanswer, nofun⟩
    | false =>
      rcases ih _ hanswer (ctx.look r q s).2 with
        ⟨hkind, hlog⟩ | ⟨hkind, before, last, hlog, hlast, hbefore⟩
      · exact Or.inl ⟨hkind, List.forall_mem_cons.mpr ⟨hanswer, hlog⟩⟩
      · refine Or.inr ⟨hkind, _ :: before, last, congrArg _ hlog, hlast, ?_⟩
        exact List.forall_mem_cons.mpr ⟨hanswer, hbefore⟩

/-- **The result says whether a lookup failed for now.** -/
theorem GivesUp.result_iff (hp : p.GivesUp kind) (ctx : Context) (r : Resolver) (s : Session) :
    kind (p.run ctx r s).1 ↔ ∃ a ∈ p.log ctx r s, a.isTransient = true := by
  rcases hp.run_log ctx r s with ⟨hkind, hlog⟩ | ⟨hkind, before, last, hlog, hlast, -⟩
  · refine iff_of_false hkind ?_
    rintro ⟨a, ha, htransient⟩
    rw [hlog a ha] at htransient
    cases htransient
  · refine iff_of_true hkind ⟨last, ?_, hlast⟩
    rw [hlog]
    exact List.mem_append_right before List.mem_cons_self

/-- **Only the last lookup may have failed for now.** -/
theorem GivesUp.not_transient (hp : p.GivesUp kind) (ctx : Context) (r : Resolver) (s : Session) :
    ∀ a ∈ (p.log ctx r s).dropLast, a.isTransient = false := by
  rcases hp.run_log ctx r s with ⟨-, hlog⟩ | ⟨-, before, last, hlog, -, hbefore⟩
  · exact fun a ha => hlog a (List.dropLast_subset _ ha)
  · rw [hlog, List.dropLast_concat]
    exact hbefore

end Inquiry

end MailScreen.Dns
