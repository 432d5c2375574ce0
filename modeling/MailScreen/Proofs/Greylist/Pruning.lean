import MailScreen.Proofs.Greylist.History

/-!
# Pruning cannot be seen

A store may drop what has expired at any time: an attempt takes an entry that has expired for none.

* `Operation` is an attempt or a pruning; `Store.perform` does some of them in order.
* `Store.live` is the entry of a key unless it has expired. `Store.Agree` says of two stores that
  they have the same rules and live entries.
* `agree_prune`, `Agree.after`: a pruning cannot be seen, and an attempt treats two stores alike
  that differ only in what has expired, so they do not come to differ in more.
* `pruning_invisible`: no history of a store shows whether and when it was pruned.
-/

namespace MailScreen.Greylist

variable {hash : List UInt8 → List UInt8} {key : List UInt8} {now later : Int}

/-- What is done to a store, and when. -/
inductive Operation where
  | attempt (a : Attempt)
  | prune (instant : Int)
  deriving Repr, DecidableEq

namespace Operation

/-- When it is done. -/
def instant : Operation → Int
  | attempt a => a.instant
  | prune t => t

/-- The attempt that it is, unless it is a pruning. -/
def attempt? : Operation → Option Attempt
  | attempt a => some a
  | prune _ => none

end Operation

/-- An attempt takes an entry that has expired for none. -/
theorem attempt_filter (p : Policy) (entry : Option Entry) (now : Int) :
    attempt p (entry.filter (now ≤ ·.expiresAt)) now = attempt p entry now := by
  cases entry with
  | none => rfl
  | some e =>
    by_cases h : e.expiresAt < now
    · simp [Option.filter, attempt, h, Int.not_le.mpr h]
    · simp [Option.filter, Int.not_lt.mp h]

namespace Store

/-- The store after an operation. -/
def afterOperation (s : Store) (hash : List UInt8 → List UInt8) : Operation → Store
  | .attempt a => s.after hash a
  | .prune t => (s.prune t).2

/-- The store after some operations in order. -/
def perform (s : Store) (hash : List UInt8 → List UInt8) (ops : List Operation) : Store :=
  ops.foldl (fun s op => s.afterOperation hash op) s

/-- What becomes of the attempts among some operations. -/
def findingsAmong (s : Store) (hash : List UInt8 → List UInt8) : List Operation → List Finding
  | [] => []
  | .attempt a :: ops =>
    (s.check hash a.request a.instant).1 :: (s.after hash a).findingsAmong hash ops
  | .prune t :: ops => (s.prune t).2.findingsAmong hash ops

/-- The entry of a key, unless it has expired. -/
def live (s : Store) (now : Int) (key : List UInt8) : Option Entry :=
  (s.entries.find? key).filter (now ≤ ·.expiresAt)

/-- Two stores have the same rules, and the same entries but for what has expired. -/
structure Agree (s s' : Store) (now : Int) : Prop where
  policy : s.policy = s'.policy
  live : ∀ key, s.live now key = s'.live now key

variable {s s' : Store} {a : Attempt}

/-- What is live later is live now. -/
theorem live_live (s : Store) (h : now ≤ later) (key : List UInt8) :
    (s.live now key).filter (later ≤ ·.expiresAt) = s.live later key := by
  rw [live, live, Option.filter_filter]
  congr 1
  funext e
  by_cases he : later ≤ e.expiresAt
  · simp [he, Int.le_trans h he]
  · simp [he]

theorem Agree.refl (s : Store) (now : Int) : s.Agree s now := ⟨rfl, fun _ => rfl⟩

theorem Agree.mono (h : s.Agree s' now) (hle : now ≤ later) : s.Agree s' later :=
  ⟨h.policy, fun key => by rw [← s.live_live hle, ← s'.live_live hle, h.live key]⟩

theorem Agree.trans {s'' : Store} (h : s.Agree s' now) (h' : s'.Agree s'' now) :
    s.Agree s'' now :=
  ⟨h.policy.trans h'.policy, fun key => (h.live key).trans (h'.live key)⟩

/-! ## One operation -/

/-- **A pruning drops nothing that is live.** -/
theorem agree_prune (s : Store) (now : Int) : (s.prune now).2.Agree s now where
  policy := rfl
  live key := by
    rw [live, live, prune]
    simp only [Table.find?_choose]
    cases s.entries.find? key with
    | none => rfl
    | some e =>
      by_cases h : e.expiresAt < now
      · simp [Option.filter, h, Int.not_le.mpr h]
      · simp [Option.filter, h]

/-- An attempt of an entry depends on what is live. -/
theorem Agree.attemptOf_eq (h : s.Agree s' now) (key : List UInt8) :
    s.attemptOf key now = s'.attemptOf key now := by
  have hlive := h.live key
  rw [Store.live, Store.live] at hlive
  rw [attemptOf, attemptOf, ← attempt_filter, hlive, attempt_filter, h.policy]

/-- **An attempt treats stores alike** that agree at its instant. -/
theorem Agree.check_eq (h : s.Agree s' a.instant) :
    (s.check hash a.request a.instant).1 = (s'.check hash a.request a.instant).1 := by
  cases hexempts : s.policy.exempts a.request with
  | true => rw [check_of_exempts hexempts, check_of_exempts (h.policy ▸ hexempts)]
  | false =>
    rw [check_of_not_exempts hexempts, check_of_not_exempts (h.policy ▸ hexempts),
      h.attemptOf_eq, h.policy]

/-- **Stores that agree still do after an attempt.** -/
theorem Agree.after (hash : List UInt8 → List UInt8) (h : s.Agree s' a.instant) :
    (s.after hash a).Agree (s'.after hash a) a.instant where
  policy := by rw [policy_after, policy_after, h.policy]
  live key := by
    cases hrecords : s.policy.records hash key a with
    | true =>
      rw [Store.live, Store.live, find?_after_of_records hrecords,
        find?_after_of_records (h.policy ▸ hrecords), h.attemptOf_eq]
    | false =>
      rw [Store.live, Store.live, find?_after_of_not_records hrecords,
        find?_after_of_not_records (h.policy ▸ hrecords)]
      exact h.live key

/-! ## Histories -/

/-- A history with prunings from one store, and the same history without them from another that
agrees with it. -/
theorem Agree.findings_eq (hash : List UInt8 → List UInt8) (h : s.Agree s' now)
    {ops : List Operation}
    (hsorted : ops.Pairwise fun a b => a.instant ≤ b.instant)
    (hops : ∀ op ∈ ops, now ≤ op.instant ∧ op.instant ≤ later) (hlater : now ≤ later) :
    s.findingsAmong hash ops = s'.findings hash (ops.filterMap Operation.attempt?) ∧
      (s.perform hash ops).Agree (s'.run hash (ops.filterMap Operation.attempt?)) later := by
  induction ops generalizing s s' now with
  | nil => exact ⟨rfl, h.mono hlater⟩
  | cons op ops ih =>
    obtain ⟨hfirst, hrest⟩ := List.pairwise_cons.mp hsorted
    have hop := hops op List.mem_cons_self
    have hnext : ∀ o ∈ ops, op.instant ≤ o.instant ∧ o.instant ≤ later :=
      fun o ho => ⟨hfirst o ho, (hops o (List.mem_cons_of_mem op ho)).2⟩
    have hnow := h.mono hop.1
    cases op with
    | attempt a =>
      obtain ⟨hfindings, hstores⟩ := ih (hnow.after hash) hrest hnext hop.2
      refine ⟨?_, hstores⟩
      rw [findingsAmong, hnow.check_eq, hfindings]
      rfl
    | prune t => exact ih ((agree_prune s t).trans hnow) hrest hnext hop.2

/-- **Pruning cannot be seen.** Take any operations on a store, in the order of their instants:
without the prunings among them, the same becomes of each attempt, and the entries that have not
expired at the end are the same. -/
theorem pruning_invisible (s : Store) (hash : List UInt8 → List UInt8) (ops : List Operation)
    (now : Int) (hsorted : ops.Pairwise fun a b => a.instant ≤ b.instant)
    (hnow : ∀ op ∈ ops, op.instant ≤ now) :
    s.findingsAmong hash ops = s.findings hash (ops.filterMap Operation.attempt?) ∧
      ∀ key, (s.perform hash ops).live now key =
        (s.run hash (ops.filterMap Operation.attempt?)).live now key := by
  cases ops with
  | nil => exact ⟨rfl, fun _ => rfl⟩
  | cons op ops =>
    have hops : ∀ o ∈ op :: ops, op.instant ≤ o.instant ∧ o.instant ≤ now := by
      intro o ho
      refine ⟨?_, hnow o ho⟩
      rcases List.mem_cons.mp ho with rfl | ho
      · exact Int.le_refl _
      · exact (List.pairwise_cons.mp hsorted).1 o ho
    obtain ⟨hfindings, hstores⟩ := (Agree.refl s op.instant).findings_eq hash hsorted hops
      (hnow op List.mem_cons_self)
    exact ⟨hfindings, hstores.live⟩

theorem pruning_invisible_boundaries :
    let s := fresh (Policy.ofSettings {})
    let request (name : String) : Request :=
      ⟨.v4 0xCB007105, "mx.b.c", some ⟨name, "b.c"⟩, ⟨"u", "d.e"⟩, none, ⟨⟨[]⟩, []⟩⟩
    let attempt (name : String) (t : Int) : Operation := .attempt ⟨request name, t * 1000000000⟩
    let prune (t : Int) : Operation := .prune (t * 1000000000)
    let ops := [attempt "a" 0, prune 14400, attempt "x" 14400, attempt "a" 14400, prune 28801,
      attempt "x" 28801, prune 28801]
    let now := 28801 * 1000000000
    ops.Pairwise (fun a b => a.instant ≤ b.instant) ∧ (∀ op ∈ ops, op.instant ≤ now) ∧
    s.findingsAmong id ops = [⟨.defer, true⟩, ⟨.defer, true⟩, ⟨.pass, true⟩, ⟨.defer, true⟩] ∧
    s.findingsAmong id ops = s.findings id (ops.filterMap Operation.attempt?) ∧
    ∀ key, (s.perform id ops).live now key =
      (s.run id (ops.filterMap Operation.attempt?)).live now key := by
  intro s request attempt prune ops now
  have hsorted : ops.Pairwise (fun a b => a.instant ≤ b.instant) := by decide
  have hnow : ∀ op ∈ ops, op.instant ≤ now := by decide
  refine ⟨hsorted, hnow, ?_, pruning_invisible s id ops now hsorted hnow⟩
  decide +kernel

end Store

end MailScreen.Greylist
