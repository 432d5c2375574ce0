import MailScreen.Proofs.Spf.Cost
import MailScreen.Proofs.Spf.Exchange

/-!
# Two evaluations side by side

To compare what a check does under two resolvers, one relates the states of the two evaluations, and
the results that they come to.

* `Coupled`: from related states two computations come to related states with related results.
* It is kept by going on with something coupled (`Coupled.bind`), by taking the outcome
  (`Coupled.outcome`) and by putting a domain on the chain (`Coupled.within`).
-/

namespace MailScreen.Spf

variable {α β α' β' : Type} {S : State → State → Prop} {R : α → β → Prop} {R' : α' → β' → Prop}

/-- From related states, two computations come to related states with related results. -/
def Coupled (S : State → State → Prop) (R : α → β → Prop) (x : State → α × State)
    (y : State → β × State) : Prop :=
  ∀ s s', S s s' → R (x s).1 (y s').1 ∧ S (x s).2 (y s').2

/-- Two evaluations go on with related values, or end with the same outcome. -/
abbrev CoupledEval (S : State → State → Prop) (R : α → β → Prop) (x : Eval α) (y : Eval β) : Prop :=
  Coupled S (Paired Eq R) x y

theorem coupled_pure {a : α} {b : β} (h : R a b) : CoupledEval S R (pure a) (pure b) :=
  fun _ _ hs => ⟨.ok h, hs⟩

theorem coupled_throw (o : Outcome) : CoupledEval S R (throw o) (throw o) :=
  fun _ _ hs => ⟨.error rfl, hs⟩

theorem Coupled.bind {x : Eval α} {y : Eval β} {f : α → Eval α'} {g : β → Eval β'}
    (hxy : CoupledEval S R x y) (hfg : ∀ a b, R a b → CoupledEval S R' (f a) (g b)) :
    CoupledEval S R' (x >>= f) (y >>= g) := by
  intro s s' hs
  obtain ⟨hresult, hstate⟩ := hxy s s' hs
  rcases hx : x s with ⟨a, t⟩
  rcases hy : y s' with ⟨b, t'⟩
  rw [hx, hy] at hresult hstate
  cases hresult with
  | ok hab =>
    rw [bind_of_ok hx, bind_of_ok hy]
    exact hfg _ _ hab t t' hstate
  | error he =>
    rw [bind_of_error hx, bind_of_error hy]
    exact ⟨.error he, hstate⟩

theorem Coupled.lift {x : StateM State α} {y : StateM State β} (h : Coupled S R x y) :
    CoupledEval S R (liftM x) (liftM y) :=
  fun s s' hs => ⟨.ok (h s s' hs).1, (h s s' hs).2⟩

theorem outcomeOf_paired {Q : Outcome → Outcome → Prop} (hQ : ∀ o, Q o o)
    {a b : Except Outcome Outcome} (h : Paired Eq Q a b) : Q (outcomeOf a) (outcomeOf b) := by
  cases h with
  | ok h => exact h
  | error h => exact h ▸ hQ _

/-- An outcome that may end both evaluations early has to be related to itself. -/
theorem Coupled.outcome {Q : Outcome → Outcome → Prop} (hQ : ∀ o, Q o o) {x y : Eval Outcome}
    (h : CoupledEval S Q x y) : Coupled S Q (Check.outcome x) (Check.outcome y) := by
  intro s s' hs
  obtain ⟨hresult, hstate⟩ := h s s' hs
  rw [outcome_apply, outcome_apply]
  exact ⟨outcomeOf_paired hQ hresult, hstate⟩

/-- States stay related if the same is done to both chains. -/
def KeepsChains (S : State → State → Prop) : Prop :=
  ∀ s s' (f : List String → List String), S s s' →
    S { s with chain := f s.chain } { s' with chain := f s'.chain }

theorem Coupled.within {Q : Outcome → Outcome → Prop} (hS : KeepsChains S)
    {x y : StateM State Outcome} (h : Coupled S Q x y) (domain : String) :
    Coupled S Q (Check.within domain x) (Check.within domain y) := by
  intro s s' hs
  rw [within_apply, within_apply]
  obtain ⟨hresult, hstate⟩ := h _ _ (hS s s' (domain :: ·) hs)
  exact ⟨hresult, hS _ _ List.tail hstate⟩

end MailScreen.Spf
