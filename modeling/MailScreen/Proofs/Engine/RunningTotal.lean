import MailScreen.Dns.Zone
import MailScreen.Proofs.Engine.Contract
import Mathlib.Algebra.Order.BigOperators.Group.List
import Mathlib.Algebra.Order.Ring.Int

/-!
# The score as a sum

A check adds up the points of its contributors one after the other, and a sum that would leave the
range of 32 bits stays at its end. What is cut off there is lost: points of the other sign that
come later count from the end of the range. Scores are cut too, but in the end only, so a loss shows
only if gains and losses are both about as large as the range.

* `tally` is the running total of points, `gains` and `losses` are the two sides of their sum.
* `le_tally`, `tally_le`, `sum_le_tally`, `tally_le_sum`: how far a running total can be from the
  sum, each by induction on the points with any start.
* `clampScore_tally_of_isModest`, `exists_order_of_not_isModest`: the points whose running total
  gives the score of their sum in every order are those that are `IsModest`.
* `score_check` says this of checks, `score_lost` is a check whose score is not that of the sum.
-/

namespace MailScreen.Engine

/-! ## Points -/

/-- The running total of some points, which at no time leaves the range of 32 bits. -/
def tally (start : Int) (points : List Int) : Int :=
  points.foldl (fun n p => saturated (n + p)) start

/-- What the points that are not negative add up to. -/
def gains (points : List Int) : Int :=
  (points.filter fun p => 0 ≤ p).sum

/-- What the negative points take off. -/
def losses (points : List Int) : Int :=
  -(points.filter fun p => p < 0).sum

/-- A number of 32 bits. -/
def InRange (n : Int) : Prop :=
  -2147483648 ≤ n ∧ n ≤ 2147483647

/-- **The gains stay in the range, or the losses leave a full score of it.** Gains that are out of
the range by one do no harm either if the losses make up for them. -/
def IsModest (points : List Int) : Prop :=
  gains points ≤ 2147483647 ∨ losses points ≤ 2147483547 ∨
    (gains points = 2147483648 ∧ 2147483648 ≤ losses points)

variable {start : Int} {points order : List Int}

theorem inRange_zero : InRange 0 := by
  unfold InRange
  omega

theorem inRange_saturated (n : Int) : InRange (saturated n) := by
  unfold InRange saturated
  omega

theorem total_eq_tally (start : Int) (as : List Answer) :
    total start as = tally start (as.map (·.contribution.points)) := by
  rw [tally, List.foldl_map]
  rfl

theorem tally_cons (start p : Int) (ps : List Int) :
    tally start (p :: ps) = tally (saturated (start + p)) ps := rfl

theorem gains_cons (p : Int) (ps : List Int) : gains (p :: ps) = max p 0 + gains ps := by
  unfold gains
  by_cases hp : 0 ≤ p
  · rw [List.filter_cons_of_pos (by simpa using hp), List.sum_cons, max_eq_left hp]
  · rw [List.filter_cons_of_neg (by simpa using hp), max_eq_right (not_le.mp hp).le, zero_add]

theorem losses_cons (p : Int) (ps : List Int) : losses (p :: ps) = max (-p) 0 + losses ps := by
  unfold losses
  by_cases hp : p < 0
  · rw [List.filter_cons_of_pos (by simpa using hp), List.sum_cons, neg_add,
      max_eq_left (Int.neg_nonneg_of_nonpos hp.le)]
  · rw [List.filter_cons_of_neg (by simpa using hp),
      max_eq_right (Int.neg_nonpos_of_nonneg (not_lt.mp hp)), zero_add]

theorem gains_nonneg (points : List Int) : 0 ≤ gains points := by
  induction points with
  | nil => exact Int.le_refl 0
  | cons p ps ih =>
    rw [gains_cons]
    omega

theorem losses_nonneg (points : List Int) : 0 ≤ losses points := by
  induction points with
  | nil => exact Int.le_refl 0
  | cons p ps ih =>
    rw [losses_cons]
    omega

theorem sum_eq_gains_sub_losses (points : List Int) :
    points.sum = gains points - losses points := by
  induction points with
  | nil => rfl
  | cons p ps ih =>
    rw [List.sum_cons, gains_cons, losses_cons, ih]
    omega

theorem IsModest.of_perm (h : IsModest points) (horder : order.Perm points) : IsModest order := by
  have hgains : gains order = gains points := (horder.filter _).sum_eq
  have hlosses : losses order = losses points := congrArg Neg.neg (horder.filter _).sum_eq
  unfold IsModest
  rw [hgains, hlosses]
  exact h

/-! ## How far a running total can be from the sum -/

/-- The total falls short of the sum only once it has been at the upper end. -/
theorem le_tally (start : Int) (points : List Int) :
    min (start + points.sum) (2147483647 - losses points) ≤ tally start points := by
  induction points generalizing start with
  | nil => exact min_le_of_left_le (by simp [tally])
  | cons p ps ih =>
    have hrest := ih (saturated (start + p))
    have hgains := gains_nonneg ps
    rw [sum_eq_gains_sub_losses] at hrest
    rw [tally_cons, sum_eq_gains_sub_losses, gains_cons, losses_cons]
    unfold saturated at hrest ⊢
    omega

/-- The total goes beyond the sum only once it has been at the lower end. -/
theorem tally_le (start : Int) (points : List Int) :
    tally start points ≤ max (start + points.sum) (-2147483648 + gains points) := by
  induction points generalizing start with
  | nil => exact le_max_of_le_left (by simp [tally])
  | cons p ps ih =>
    have hrest := ih (saturated (start + p))
    have hlosses := losses_nonneg ps
    rw [sum_eq_gains_sub_losses] at hrest
    rw [tally_cons, sum_eq_gains_sub_losses, gains_cons, losses_cons]
    unfold saturated at hrest ⊢
    omega

/-- A total that cannot reach the upper end does not fall short of the sum. -/
theorem sum_le_tally (hstart : InRange start) (h : start + gains points ≤ 2147483647) :
    start + points.sum ≤ tally start points := by
  induction points generalizing start with
  | nil => simp [tally]
  | cons p ps ih =>
    have hgains := gains_nonneg ps
    rw [gains_cons] at h
    unfold InRange at hstart
    have hrest := ih (inRange_saturated (start + p)) (by unfold saturated; omega)
    rw [tally_cons, List.sum_cons]
    unfold saturated at hrest ⊢
    omega

/-- A total that cannot reach the lower end does not go beyond the sum. -/
theorem tally_le_sum (hstart : InRange start) (h : -2147483648 ≤ start - losses points) :
    tally start points ≤ start + points.sum := by
  induction points generalizing start with
  | nil => simp [tally]
  | cons p ps ih =>
    have hlosses := losses_nonneg ps
    rw [losses_cons] at h
    unfold InRange at hstart
    have hrest := ih (inRange_saturated (start + p)) (by unfold saturated; omega)
    rw [tally_cons, List.sum_cons]
    unfold saturated at hrest ⊢
    omega

/-! ## Scores -/

theorem clampScore_eq_iff {m n : Int} : clampScore m = clampScore n ↔
    min (max m 0) 100 = min (max n 0) 100 := by
  unfold clampScore
  rw [Fin.mk.injEq]
  omega

/-- **Modest points score as their sum.** -/
theorem clampScore_tally_of_isModest (h : IsModest points) :
    clampScore (tally 0 points) = clampScore points.sum := by
  have hlow := le_tally 0 points
  have hhigh := tally_le 0 points
  have hgains : gains points ≤ 2147483647 → points.sum ≤ tally 0 points := by
    intro h
    have := sum_le_tally inRange_zero (by omega : 0 + gains points ≤ _)
    omega
  have hlosses : losses points ≤ 2147483547 → tally 0 points ≤ points.sum := by
    intro h
    have := tally_le_sum inRange_zero (by omega : _ ≤ 0 - losses points)
    omega
  rw [clampScore_eq_iff]
  have hsum := sum_eq_gains_sub_losses points
  rcases h with h | h | ⟨h, h'⟩
  · have := hgains h
    omega
  · have := hlosses h
    omega
  · omega

/-- Points score as their sum if no sum of the first of them leaves the range. -/
theorem clampScore_tally_of_inRange
    (h : ∀ n < points.length, InRange (start + (points.take n).sum)) :
    clampScore (tally start points) = clampScore (start + points.sum) := by
  induction points generalizing start with
  | nil => simp [tally]
  | cons p ps ih =>
    cases ps with
    | nil =>
      -- what the last sum has too much is cut off with the score
      rw [clampScore_eq_iff]
      simp only [tally, List.foldl_cons, List.foldl_nil, List.sum_cons, List.sum_nil, saturated]
      omega
    | cons q qs =>
      have hfirst : InRange (start + p) := by simpa using h 1 (by simp)
      have hsaturated : saturated (start + p) = start + p := by
        unfold InRange at hfirst
        unfold saturated
        omega
      have hrest : ∀ n < (q :: qs).length, InRange (start + p + ((q :: qs).take n).sum) := by
        intro n hn
        rw [add_assoc, ← List.sum_cons, ← List.take_succ_cons]
        exact h (n + 1) (Nat.succ_lt_succ hn)
      rw [tally_cons, hsaturated, ih hrest, add_assoc, ← List.sum_cons]

/-! ## Orders that lose points -/

theorem tally_of_nonneg (hstart : InRange start) (h : ∀ p ∈ points, 0 ≤ p) :
    tally start points = min (start + points.sum) 2147483647 := by
  induction points generalizing start with
  | nil =>
    unfold InRange at hstart
    simp only [tally, List.foldl_nil, List.sum_nil]
    omega
  | cons p ps ih =>
    obtain ⟨hp, hps⟩ := List.forall_mem_cons.mp h
    have hsum := List.sum_nonneg hps
    unfold InRange at hstart
    rw [tally_cons, ih (inRange_saturated (start + p)) hps, List.sum_cons]
    unfold saturated
    omega

theorem tally_of_nonpos (hstart : InRange start) (h : ∀ p ∈ points, p ≤ 0) :
    tally start points = max (start + points.sum) (-2147483648) := by
  induction points generalizing start with
  | nil =>
    unfold InRange at hstart
    simp only [tally, List.foldl_nil, List.sum_nil]
    omega
  | cons p ps ih =>
    obtain ⟨hp, hps⟩ := List.forall_mem_cons.mp h
    have hsum : ps.sum ≤ 0 := by simpa using List.sum_le_card_nsmul ps 0 hps
    unfold InRange at hstart
    rw [tally_cons, ih (inRange_saturated (start + p)) hps, List.sum_cons]
    unfold saturated
    omega

theorem tally_append (start : Int) (points ps : List Int) :
    tally start (points ++ ps) = tally (tally start points) ps :=
  List.foldl_append

/-- **Points that are not modest score differently in some order**: with the gains first, or else
with the losses first. -/
theorem exists_order_of_not_isModest (h : ¬ IsModest points) :
    ∃ order, order.Perm points ∧ clampScore (tally 0 order) ≠ clampScore points.sum := by
  let won := points.filter fun p => 0 ≤ p
  let lost := points.filter fun p => p < 0
  have hwon : ∀ p ∈ won, 0 ≤ p := fun p hp => of_decide_eq_true (List.mem_filter.mp hp).2
  have hlost : ∀ p ∈ lost, p ≤ 0 := fun p hp => (of_decide_eq_true (List.mem_filter.mp hp).2).le
  have hperm : (won ++ lost).Perm points := by
    have hrest : lost = points.filter fun p => !Decidable.decide (0 ≤ p) :=
      List.filter_congr fun p _ => by rw [← decide_not, decide_eq_decide, Int.not_le]
    rw [hrest]
    exact List.filter_append_perm _ _
  have hgains : gains points = won.sum := rfl
  have hlosses : losses points = -lost.sum := rfl
  have hsum := sum_eq_gains_sub_losses points
  unfold IsModest at h
  by_cases hpositive : 0 < points.sum
  · refine ⟨won ++ lost, hperm, ?_⟩
    rw [ne_eq, clampScore_eq_iff, tally_append, tally_of_nonneg inRange_zero hwon,
      tally_of_nonpos (by unfold InRange; omega) hlost]
    omega
  · refine ⟨lost ++ won, List.perm_append_comm.trans hperm, ?_⟩
    rw [ne_eq, clampScore_eq_iff, tally_append, tally_of_nonpos inRange_zero hlost,
      tally_of_nonneg (by unfold InRange; omega) hwon]
    omega

/-! ## Checks -/

/-- **The score is that of the sum of all points**, as long as they do not outrun the range of 32
bits. Let no contributor end a check of an engine that was built. Its score is that of the running
total of the points of all its contributors, in order. This is the score of their sum if no sum of
the first of them, short of all, leaves the range, and also if they are modest; and modest points,
but no others, score so in every order. -/
theorem score_check {scheme : Dkim.Scheme} {reg : Registry} {r : Dns.Resolver}
    {keyText : String → Except String String} {extra : List Contributor} {c : Config} {e : Engine}
    (hbuild : build scheme reg r keyText extra c = .ok e) (id : String) (mode : Mode)
    (ctx : Dns.Context) (q : Request) (timeOfDay : Int) (s : State)
    (hunended : ∀ a ∈ answers (e.task mode ctx q timeOfDay)
      (standardContributors scheme reg r c ++ extra) .nothing s.stores, a.decision = none) :
    let given := answers (e.task mode ctx q timeOfDay)
      (standardContributors scheme reg r c ++ extra) .nothing s.stores
    let points := given.map (·.contribution.points)
    let score := (e.check id mode ctx q timeOfDay s).1.score
    score = clampScore (tally 0 points) ∧
    (IsModest points ∨ (∀ n < points.length, InRange (points.take n).sum) →
      score = clampScore points.sum) ∧
    (IsModest points ↔
      ∀ order, order.Perm points → clampScore (tally 0 order) = clampScore points.sum) := by
  intro given points score
  have hgiven : answers (e.task mode ctx q timeOfDay) e.contributors .nothing s.stores = given := by
    rw [contributors_of_build hbuild]
  have hscore : score = clampScore (tally 0 points) := by
    obtain ⟨-, hscore, -⟩ := check_of_unended (by rwa [hgiven]) id
    rwa [hgiven, total_eq_tally] at hscore
  refine ⟨hscore, ?_, fun h order horder => ?_, fun h => ?_⟩
  · rintro (h | h)
    · exact hscore.trans (clampScore_tally_of_isModest h)
    · rw [hscore, clampScore_tally_of_inRange (by simpa using h), zero_add]
  · rw [clampScore_tally_of_isModest (h.of_perm horder), horder.sum_eq]
  · by_contra hmodest
    obtain ⟨order, horder, hne⟩ := exists_order_of_not_isModest hmodest
    exact hne (h order horder)

/-- The losses leave just a full score of the range, of which the gains have twice as much. -/
theorem score_check_full :
    let c : Config := { greylist := { enabled := false }, scoring := { weights :=
      { spfNone := 2147483647, dkimNone := 2147483647, missingAuthor := -2147483547 } } }
    let scheme : Dkim.Scheme := ⟨fun _ => [], fun _ _ => none⟩
    let reg : Registry := .ofRules []
    let r := Dns.Zone.empty.resolver
    let q : Request := ⟨.v4 0xCB007105, "mx.b.c", some ⟨"u", "a.com"⟩, ⟨"u", "d.e"⟩, none,
      ⟨⟨[]⟩, []⟩⟩
    let s := State.fresh c 0
    ∃ e, build scheme reg r (fun _ => .error "") [] c = .ok e ∧
      let given := answers (e.task .standard ⟨0, none⟩ q 0)
        (standardContributors scheme reg r c ++ []) .nothing s.stores
      (∀ a ∈ given, a.decision = none) ∧
      given.map (·.contribution.points) = [0, 0, 2147483647, 2147483647, -2147483547, 0] ∧
      (e.check "" .standard ⟨0, none⟩ q 0 s).1.score = 100 ∧
      ∀ order, order.Perm [0, 0, 2147483647, 2147483647, -2147483547, 0] →
        clampScore (tally 0 order) = 100 := by
  intro c scheme reg r q s
  have hbuild : build scheme reg r (fun _ => .error "") [] c = .ok _ :=
    build_of_fault? (by decide +kernel) rfl
  refine ⟨_, hbuild, ?_⟩
  intro given
  have hunended : ∀ a ∈ given, a.decision = none := by decide +kernel
  have hpoints : given.map (·.contribution.points) =
      [0, 0, 2147483647, 2147483647, -2147483547, 0] := by decide +kernel
  have hmodest : IsModest [0, 0, 2147483647, 2147483647, -2147483547, 0] :=
    .inr (.inl (by decide +kernel))
  obtain ⟨-, hscore, horders⟩ := score_check hbuild "" .standard ⟨0, none⟩ q 0 s hunended
  have hgiven : (answers _ _ _ _).map (·.contribution.points) = _ := hpoints
  rw [hgiven] at hscore horders
  exact ⟨hunended, hpoints, hscore (.inl hmodest), horders.mp hmodest⟩

/-- **Points beyond the range are lost**, and the points that come later are missing in the score:
nothing ends this check, its points add up to more than a full score, and its score is zero. -/
theorem score_lost :
    let c : Config := { greylist := { enabled := false }, scoring := { weights :=
      { spfNone := 2147483647, dkimNone := 2147483647, missingAuthor := -2147483648 } } }
    let scheme : Dkim.Scheme := ⟨fun _ => [], fun _ _ => none⟩
    let reg : Registry := .ofRules []
    let r := Dns.Zone.empty.resolver
    let q : Request := ⟨.v4 0xCB007105, "mx.b.c", some ⟨"u", "a.com"⟩, ⟨"u", "d.e"⟩, none,
      ⟨⟨[]⟩, []⟩⟩
    let s := State.fresh c 0
    ∃ e, build scheme reg r (fun _ => .error "") [] c = .ok e ∧
      let given := answers (e.task .standard ⟨0, none⟩ q 0)
        (standardContributors scheme reg r c ++ []) .nothing s.stores
      let points := given.map (·.contribution.points)
      (∀ a ∈ given, a.decision = none) ∧ points.sum = 2147483646 ∧ clampScore points.sum = 100 ∧
      (e.check "" .standard ⟨0, none⟩ q 0 s).1.score = 0 ∧
      (e.check "" .standard ⟨0, none⟩ q 0 s).1.decision = .accept := by
  intro c scheme reg r q s
  exact ⟨_, build_of_fault? (by decide +kernel) rfl, by decide +kernel⟩

end MailScreen.Engine
