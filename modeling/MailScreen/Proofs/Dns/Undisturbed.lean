import MailScreen.Dns.Zone
import MailScreen.Proofs.Dns.Inquiry

/-!
# Lookups that do not fail for now

A lookup fails for now if the resolver says so, or if the deadline or the cancellation comes before
the answer. Where no lookup fails so, what is found out is what the resolver has to say.

* `Context.look_of_not_transient`: such a lookup gives the answer of the resolver.
* `Asks` says that a computation does what some inquiry does, `Untroubled` that none of the lookups
  of this inquiry fails for now. `Untroubled.of_bind` follows a computation through its parts.
* `Asks.untroubled`: with a zone that answers at once, nothing that is not cancelled fails for now.
-/

namespace MailScreen.Dns

variable {ctx : Context} {r : Resolver} {q : Query} {s : Session} {α β : Type}

/-! ## One lookup -/

/-- What a response comes to is the answer, or a failure for now. -/
theorem Context.await_fst (now : Int) (response : Response α) :
    (ctx.await now response).1 = response.answer ∨
      isTransientError (ctx.await now response).1 = true := by
  unfold await
  simp only
  split
  · exact Or.inl rfl
  · split
    · exact Or.inl rfl
    · split
      · exact Or.inr rfl
      · exact Or.inr rfl

/-- **A lookup that does not fail for now** gives what the resolver answers. -/
theorem Context.look_of_not_transient (h : isTransientError (ctx.look r q s).1 = false) :
    (ctx.look r q s).1 = (r.respond q s.history).answer := by
  cases hcancelled : ctx.isCancelled s.now with
  | true =>
    rw [look_of_isCancelled hcancelled] at h
    cases h
  | false =>
    rw [look_of_not_isCancelled hcancelled] at h ⊢
    refine (await_fst s.now (r.respond q s.history)).resolve_right fun htransient => ?_
    exact Bool.false_ne_true (h.symm.trans htransient)

/-- What a lookup gives, the resolver has answered. -/
theorem Context.answer_of_look_eq_ok {records : q.Records}
    (h : (ctx.look r q s).1 = .ok records) : (r.respond q s.history).answer = .ok records := by
  rw [← look_of_not_transient (by rw [h]; rfl), h]

/-- A lookup that takes no time gives what the resolver answers, unless the check was cancelled. -/
theorem Context.resolve_of_delay_eq_zero {ask : List Query → Response α}
    (h : (ask s.history).delay = 0) : ctx.resolve q ask s =
      if ctx.isCancelled s.now then (.error .cancelled, s)
      else ((ask s.history).answer, ⟨s.now, q :: s.history⟩) := by
  unfold resolve await
  rw [if_pos h]

/-! ## Computations that ask -/

/-- A computation that does what some inquiry does, with any resolver in any context. -/
def Asks (x : Context → Resolver → StateM Session α) : Prop :=
  ∃ p : Inquiry α, ∀ ctx r, x ctx r = p.run ctx r

/-- A computation does what some inquiry does, and none of the lookups that are made fails for
now. -/
def Untroubled (x : Context → Resolver → StateM Session α) (ctx : Context) (r : Resolver)
    (s : Session) : Prop :=
  ∃ p : Inquiry α, (∀ ctx r, x ctx r = p.run ctx r) ∧
    ∀ a ∈ p.log ctx r s, a.isTransient = false

theorem asks_pure (a : α) : Asks fun _ _ => pure a := ⟨.done a, fun _ _ => rfl⟩

theorem asks_look (q : Query) : Asks fun ctx r => ctx.look r q := ⟨.ask q .done, fun _ _ => rfl⟩

theorem Inquiry.log_bind (p : Inquiry α) (f : α → Inquiry β) (s : Session) :
    (p.bind f).log ctx r s =
      p.log ctx r s ++ (f (p.run ctx r s).1).log ctx r (p.run ctx r s).2 := by
  induction p generalizing s with
  | done a => rfl
  | ask q next ih => exact congrArg _ (ih (ctx.look r q s).1 (ctx.look r q s).2)

variable {x : Context → Resolver → StateM Session α}
  {f : α → Context → Resolver → StateM Session β}

/-- The inquiry for a computation that goes on by the result of another one. -/
theorem run_bind_eq {p : Inquiry α} {g : α → Inquiry β} (hp : ∀ ctx r, x ctx r = p.run ctx r)
    (hg : ∀ a ctx r, f a ctx r = (g a).run ctx r) (ctx : Context) (r : Resolver) :
    (x ctx r >>= fun a => f a ctx r) = (p.bind g).run ctx r := by
  funext s
  rw [Inquiry.run_bind, ← hg, ← hp]
  rfl

theorem Asks.bind (hx : Asks x) (hf : ∀ a, Asks (f a)) :
    Asks fun ctx r => x ctx r >>= fun a => f a ctx r := by
  obtain ⟨p, hp⟩ := hx
  let g (a : α) : Inquiry β := (hf a).choose
  exact ⟨p.bind g, run_bind_eq hp fun a => (hf a).choose_spec⟩

/-- **What goes untroubled does so in both of its parts.** -/
theorem Untroubled.of_bind (hx : Asks x) (hf : ∀ a, Asks (f a))
    (h : Untroubled (fun ctx r => x ctx r >>= fun a => f a ctx r) ctx r s) :
    Untroubled x ctx r s ∧ Untroubled (f (x ctx r s).1) ctx r (x ctx r s).2 := by
  obtain ⟨p, hp⟩ := hx
  let g (a : α) : Inquiry β := (hf a).choose
  have hg (a : α) : ∀ ctx r, f a ctx r = (g a).run ctx r := (hf a).choose_spec
  obtain ⟨whole, hwhole, hlog⟩ := h
  obtain rfl : whole = p.bind g :=
    Inquiry.eq_of_run_eq fun r ctx => (hwhole ctx r).symm.trans (run_bind_eq hp hg ctx r)
  rw [Inquiry.log_bind, List.forall_mem_append, ← hp] at hlog
  exact ⟨⟨p, hp, hlog.1⟩, ⟨g _, hg _, hlog.2⟩⟩

theorem Untroubled.not_transient (h : Untroubled (fun ctx r => ctx.look r q) ctx r s) :
    isTransientError (ctx.look r q s).1 = false := by
  obtain ⟨p, hp, hlog⟩ := h
  obtain rfl : p = .ask q .done := Inquiry.eq_of_run_eq fun r ctx => (hp ctx r).symm
  exact hlog _ List.mem_cons_self

/-! ## Zones that answer at once -/

/-- A zone that answers every lookup, and at once. -/
structure Zone.IsPrompt (z : Zone) : Prop where
  faults : z.faults = []
  delay : z.delay = 0

theorem Zone.IsPrompt.answer_eq {z : Zone} (hz : z.IsPrompt) (records : List (String × α))
    (name : String) : z.answer records name = .ok (valuesAt records (key name)) ∨
      z.answer records name = .error .notFound ∧ valuesAt records (key name) = [] := by
  unfold answer
  rw [hz.faults, List.lookup_nil]
  cases valuesAt records (key name) with
  | nil => exact Or.inr ⟨rfl, rfl⟩
  | cons => exact Or.inl rfl

theorem Zone.IsPrompt.not_transient {z : Zone} (hz : z.IsPrompt) (records : List (String × α))
    (name : String) : isTransientError (z.answer records name) = false := by
  rcases hz.answer_eq records name with h | ⟨h, -⟩ <;> rw [h] <;> rfl

/-- **With a zone that answers at once**, nothing that is not cancelled fails for now. -/
theorem Asks.untroubled (hx : Asks x) {z : Zone} (hz : z.IsPrompt)
    (h : ctx.isCancelled s.now = false) : Untroubled x ctx z.resolver s := by
  obtain ⟨p, hp⟩ := hx
  refine ⟨p, hp, ?_⟩
  induction p generalizing s x with
  | done a => exact nofun
  | ask q next ih =>
    have hdelay : (z.resolver.respond q s.history).delay = 0 := by cases q <;> exact hz.delay
    have hanswer : isTransientError (z.resolver.respond q s.history).answer = false := by
      cases q <;> exact hz.not_transient _ _
    have hlook : ctx.look z.resolver q s =
        ((z.resolver.respond q s.history).answer, ⟨s.now, q :: s.history⟩) :=
      (Context.resolve_of_delay_eq_zero hdelay).trans (if_neg (by rw [h]; exact Bool.false_ne_true))
    rw [Inquiry.log_ask, List.forall_mem_cons, hlook]
    exact ⟨hanswer, ih _ h fun _ _ => rfl⟩

end MailScreen.Dns
