import MailScreen.Proofs.Dns.Inquiry
import Mathlib.Tactic.SplitIfs

/-!
# What lookups make of the clock

While a check does lookups, they are all that moves its clock, and all of them share one context.

* `Course` says that some lookups, started one after the other, lead from one session to another,
  and that the check is not cancelled when any of them is started.
* `Course.now_le_deadline`, `Course.now_le_cancel`: however many there are, the clock does not pass
  the deadline or the cancellation.
* `StaysOnCourse` is for computations on sessions; every inquiry is one (`Inquiry.staysOnCourse`).
-/

namespace MailScreen.Dns

variable {ctx : Context} {r : Resolver}

/-- **The lookups lead from one session to the other**: each is started where the one before has
ended, and not when the check is cancelled. -/
inductive Course (ctx : Context) (r : Resolver) : Session → List Query → Session → Prop
  | done (s : Session) : Course ctx r s [] s
  | look {s s' : Session} {q : Query} {later : List Query}
      (hstart : ctx.isCancelled s.now = false)
      (hlater : Course ctx r (ctx.look r q s).2 later s') : Course ctx r s (q :: later) s'

namespace Course

variable {s s' s'' : Session} {qs qs' : List Query}

theorem trans (h : Course ctx r s qs s') (h' : Course ctx r s' qs' s'') :
    Course ctx r s (qs ++ qs') s'' := by
  induction h with
  | done s => exact h'
  | look hstart _ ih => exact look hstart (ih h')

/-- The lookups are those that the session lists as started. -/
theorem queries_eq (h : Course ctx r s qs s') : s'.queries = s.queries ++ qs := by
  induction h with
  | done s => rw [List.append_nil]
  | look hstart _ ih =>
    rw [ih, Context.look_of_not_isCancelled hstart]
    unfold Session.queries
    rw [List.reverse_cons, List.append_assoc]
    rfl

end Course

/-! ## The clock -/

/-- Whatever comes of a response, it comes at once, or by the deadline and by the cancellation. -/
theorem Context.await_le {α : Type} (now : Int) (response : Response α)
    (hstart : ctx.isCancelled now = false) :
    (ctx.await now response).2 ≤ max now ctx.deadline ∧
      ∀ c ∈ ctx.cancelAt, (ctx.await now response).2 ≤ max now c := by
  rcases ctx with ⟨deadline, _ | c⟩
  · have hawait : (Context.await ⟨deadline, none⟩ now response).2 ≤ max now deadline := by
      unfold Context.await beforeCancel
      simp only [Bool.and_true, decide_eq_true_eq, if_true]
      split_ifs <;> simp only <;> omega
    exact ⟨hawait, nofun⟩
  · have hlater : now < c := Int.not_le.mp (of_decide_eq_false hstart)
    have hawait : (Context.await ⟨deadline, some c⟩ now response).2 ≤ max now deadline ∧
        (Context.await ⟨deadline, some c⟩ now response).2 ≤ max now c := by
      unfold Context.await beforeCancel
      simp only [Bool.and_eq_true, decide_eq_true_eq, Option.getD_some]
      split_ifs <;> simp only <;> omega
    refine ⟨hawait.1, ?_⟩
    rintro _ ⟨⟩
    exact hawait.2

namespace Course

variable {s s' : Session} {qs : List Query}

/-- **Lookups do not pass the deadline**, all of them together. -/
theorem now_le_deadline (h : Course ctx r s qs s') : s'.now ≤ max s.now ctx.deadline := by
  induction h with
  | done s => exact Int.le_max_left _ _
  | @look s s' q later hstart _ ih =>
    have hfirst := (Context.await_le s.now (r.respond q s.history) hstart).1
    rw [Context.look_of_not_isCancelled hstart] at ih
    simp only at ih
    omega

/-- **Lookups do not pass the cancellation.** -/
theorem now_le_cancel (h : Course ctx r s qs s') {c : Int} (hc : c ∈ ctx.cancelAt) :
    s'.now ≤ max s.now c := by
  induction h with
  | done s => exact Int.le_max_left _ _
  | @look s s' q later hstart _ ih =>
    have hfirst := (Context.await_le s.now (r.respond q s.history) hstart).2 c hc
    rw [Context.look_of_not_isCancelled hstart] at ih
    simp only at ih
    omega

end Course

/-! ## Computations that only do lookups -/

/-- The computation does nothing to a session but lookups. -/
def StaysOnCourse {β : Type} (ctx : Context) (r : Resolver) (x : Session → β × Session) : Prop :=
  ∀ s, ∃ started, Course ctx r s started (x s).2

section

variable {α β : Type}

theorem staysOnCourse_pure (a : α) : StaysOnCourse ctx r (pure a : StateM Session α) :=
  fun s => ⟨[], .done s⟩

theorem staysOnCourse_look (q : Query) : StaysOnCourse ctx r (ctx.look r q) := by
  intro s
  cases h : ctx.isCancelled s.now with
  | true =>
    rw [Context.look_of_isCancelled h]
    exact ⟨[], .done s⟩
  | false => exact ⟨[q], .look h (.done _)⟩

theorem StaysOnCourse.bind {x : StateM Session α} {f : α → StateM Session β}
    (hx : StaysOnCourse ctx r x) (hf : ∀ a, StaysOnCourse ctx r (f a)) :
    StaysOnCourse ctx r (x >>= f) := by
  intro s
  obtain ⟨first, hfirst⟩ := hx s
  obtain ⟨later, hlater⟩ := hf (x s).1 (x s).2
  exact ⟨first ++ later, hfirst.trans hlater⟩

/-- **An inquiry does nothing but lookups.** -/
theorem Inquiry.staysOnCourse (p : Inquiry α) : StaysOnCourse ctx r (p.run ctx r) := by
  induction p with
  | done a => exact staysOnCourse_pure a
  | ask q next ih => exact (staysOnCourse_look q).bind ih

end

end MailScreen.Dns
