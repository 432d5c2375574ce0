import MailScreen.Proofs.RateLimit.Throughput
import MailScreen.Proofs.RateLimit.Unrounded

/-!
# Costs that need not be numbers

A cost is asked for as a float, which may be infinite, or not a number at all. If floats are read
without rounding, each of them is a rational number or one of these, and a limiter counts in such
readings. All that it ever holds are numbers, so it does what a limiter of rational numbers does.

* `Reading` is what a float is read as. Readings are added, multiplied and compared as floats are,
  but for the rounding.
* `Reading.standIn` is a number that a limiter treats as it treats the reading: an infinite cost is
  as good as one beyond the capacity, and what is no cost is as good as a negative number.
* `Limiter.Mirrors` relates a limiter of readings to one of rational numbers.
  `Limiter.Mirrors.consume` and `Limiter.Mirrors.prune` say that both go the same way, and
  `Limiter.Mirrors.run` carries this through a run.
* `exists_mirrors_runCalls`: the limiters that settings ask for, after any calls.
* `Limiter.consume_of_not_isCost`, `Limiter.consume_of_not_covers` and `Limiter.consume_of_covers`
  are all that an attempt can come to, in any amount.
-/

namespace MailScreen.RateLimit

/-- What a float is read as. -/
inductive Reading where
  | number (x : Rat)
  | infinite (positive : Bool)
  | notANumber
  deriving Repr, DecidableEq

namespace Reading

/-- The reading of a float. -/
def ofFloat (x : Float) : Reading :=
  match x.toModel.unpack with
  | .finite sign mantissa exponent _ => number ((sign.apply mantissa : Int) * (2 : Rat) ^ exponent)
  | .zero _ => number 0
  | .infinity sign => infinite (sign == .positive)
  | .notANumber => notANumber

/-- Infinities of both signs have no sum. -/
def add : Reading → Reading → Reading
  | number x, number y => number (x + y)
  | number _, infinite p => infinite p
  | infinite p, number _ => infinite p
  | infinite p, infinite q => if p = q then infinite p else notANumber
  | notANumber, _ => notANumber
  | _, notANumber => notANumber

/-- The opposite reading. -/
def neg : Reading → Reading
  | number x => number (-x)
  | infinite p => infinite !p
  | notANumber => notANumber

/-- Zero and an infinity have no product. -/
def mul : Reading → Reading → Reading
  | number x, number y => number (x * y)
  | number x, infinite p => if x = 0 then notANumber else infinite (p == decide (0 < x))
  | infinite p, number y => if y = 0 then notANumber else infinite (p == decide (0 < y))
  | infinite p, infinite q => infinite (p == q)
  | notANumber, _ => notANumber
  | _, notANumber => notANumber

/-- Whether a reading is less than another one; what is not a number is less than nothing. -/
def less : Reading → Reading → Bool
  | number x, number y => x < y
  | number _, infinite p => p
  | infinite p, number _ => !p
  | infinite p, infinite q => !p && q
  | notANumber, _ => false
  | _, notANumber => false

/-- Whether a reading is at most another one; what is not a number is not even at most itself. -/
def atMost : Reading → Reading → Bool
  | number x, number y => x ≤ y
  | number _, infinite p => p
  | infinite p, number _ => !p
  | infinite p, infinite q => !p || q
  | notANumber, _ => false
  | _, notANumber => false

instance : Add Reading := ⟨add⟩

instance : Sub Reading := ⟨fun a b => add a (neg b)⟩

instance : Mul Reading := ⟨mul⟩

instance : LT Reading := ⟨fun a b => a.less b = true⟩

instance : LE Reading := ⟨fun a b => a.atMost b = true⟩

instance : DecidableLT Reading := fun a b => inferInstanceAs (Decidable (a.less b = true))

instance : DecidableLE Reading := fun a b => inferInstanceAs (Decidable (a.atMost b = true))

instance : Amount Reading where
  zero := number 0
  one := number 1
  slack := number (1 / 1000000000)
  ofSpan n := number ((n : Rat) / 1000000000)
  isNumber a := a != notANumber

/-! ## Numbers among the readings -/

variable {x y : Rat}

theorem number_lt : number x < number y ↔ x < y :=
  decide_eq_true_iff

theorem number_le : number x ≤ number y ↔ x ≤ y :=
  decide_eq_true_iff

theorem number_sub (x y : Rat) : number x - number y = number (x - y) := by
  show number (x + -y) = number (x - y)
  rw [sub_eq_add_neg]

theorem least_number (x y : Rat) : least (number x) (number y) = number (least x y) := by
  show (if number y < number x then number y else number x) = number (if y < x then y else x)
  simp only [number_lt, apply_ite number]

theorem between_number (low high x : Rat) :
    between (number low) (number high) (number x) = number (between low high x) := by
  have hlow : (if number x < number low then number low else number x) =
      number (if x < low then low else x) := by
    simp only [number_lt, apply_ite number]
  unfold between
  rw [hlow]
  exact least_number (if x < low then low else x) high

/-- **A float above zero** is read as the number that it stands for. -/
theorem ofFloat_of_isPositive {x : Float} (h : Config.isPositive x = true) :
    ofFloat x = number (valueOf x) := by
  obtain ⟨m, e, hm, hx⟩ := exists_unpack_of_isPositive h
  rw [ofFloat, valueOf, hx]

/-- A number that stands for a reading where a bucket has some capacity. -/
def standIn (capacity : Rat) : Reading → Rat
  | number x => x
  | infinite true => max capacity 0 + 1
  | infinite false => -1
  | notANumber => -1

end Reading

/-! ## What an attempt comes to -/

namespace Limiter

variable {α : Type} [Add α] [Sub α] [Mul α] [LT α] [LE α] [DecidableLT α] [DecidableLE α] [Amount α]
  {l : Limiter α} {key : Key} {cost : α} {now : Int}

theorem consume_of_not_isCost (hcost : isCost cost = false) :
    l.consume key cost now = (⟨false, (l.bucket key now).tokens⟩, l) := by
  simp only [consume, hcost, Bool.not_false, if_true]

theorem consume_of_not_covers (hcost : isCost cost = true)
    (hcovers : ((l.bucket key now).refill (l.limits key) now).covers cost = false) :
    l.consume key cost now =
      let b := (l.bucket key now).refill (l.limits key) now
      (⟨false, b.tokens⟩, { l with buckets := l.buckets.put key b }) := by
  simp only [consume, hcost, hcovers, Bool.not_true, Bool.false_eq_true, if_false]

theorem consume_of_covers (hcost : isCost cost = true)
    (hcovers : ((l.bucket key now).refill (l.limits key) now).covers cost = true) :
    l.consume key cost now =
      let b := ((l.bucket key now).refill (l.limits key) now).spend (l.limits key) cost
      (⟨true, b.tokens⟩, { l with buckets := l.buckets.put key b }) := by
  simp only [consume, hcost, hcovers, Bool.not_true, Bool.false_eq_true, if_false, if_true]

/-- An attempt is allowed if its cost can be asked for and there is enough for it. -/
theorem allowed_consume (l : Limiter α) (key : Key) (cost : α) (now : Int) :
    (l.consume key cost now).1.allowed =
      (isCost cost && ((l.bucket key now).refill (l.limits key) now).covers cost) := by
  cases hcost : isCost cost with
  | false =>
    rw [consume_of_not_isCost hcost]
    rfl
  | true =>
    cases hcovers : ((l.bucket key now).refill (l.limits key) now).covers cost with
    | false => rw [consume_of_not_covers hcost hcovers]; rfl
    | true => rw [consume_of_covers hcost hcovers]; rfl

end Limiter

/-! ## Buckets of numbers -/

section Map

variable {α β : Type} (f : α → β)

/-- The limits in other amounts. -/
def Limits.map (limits : Limits α) : Limits β :=
  ⟨f limits.capacity, f limits.refill⟩

/-- The bucket in another amount. -/
def Bucket.map (b : Bucket α) : Bucket β :=
  ⟨f b.tokens, b.filledAt⟩

/-- The outcome in another amount. -/
def Outcome.map (o : Outcome α) : Outcome β :=
  ⟨o.allowed, f o.remaining⟩

end Map

open Reading

theorem Limits.map_ofFloat {limits : Limits Float} (h : Config.isUsable limits = true) :
    limits.map ofFloat = limits.unrounded.map number := by
  obtain ⟨hcapacity, hrefill⟩ := Bool.and_eq_true_iff.mp h
  rw [map, ofFloat_of_isPositive hcapacity, ofFloat_of_isPositive hrefill]
  rfl

/-- What is no cost stands for no cost. -/
theorem isCost_standIn (capacity : Rat) (cost : Reading) :
    Limiter.isCost (cost.standIn capacity) = Limiter.isCost cost := by
  cases cost with
  | number x => exact congrArg (fun b => true && !b) (decide_eq_decide.mpr number_lt).symm
  | notANumber => rfl
  | infinite positive =>
    cases positive with
    | false => rfl
    | true =>
      have hcost : ¬ max capacity 0 + 1 < 0 := by
        have := le_max_right capacity 0
        linarith
      show (true && !decide (max capacity 0 + 1 < 0)) = true
      rw [decide_eq_false hcost]
      rfl

namespace Bucket

variable (b : Bucket Rat) (limits : Limits Rat)

theorem refill_map (now : Int) :
    (b.map number).refill (limits.map number) now = (b.refill limits now).map number := by
  unfold refill
  rw [map, mk.injEq]
  exact ⟨least_number _ _, rfl⟩

theorem spend_map (cost : Rat) :
    (b.map number).spend (limits.map number) (number cost) = (b.spend limits cost).map number := by
  unfold spend map
  rw [mk.injEq, number_sub]
  exact ⟨between_number _ _ _, rfl⟩

theorem covers_map (cost : Rat) : (b.map number).covers (number cost) = b.covers cost :=
  decide_eq_decide.mpr number_le

theorem isFull_map : (b.map number).isFull (limits.map number) = b.isFull limits :=
  congrArg not (decide_eq_decide.mpr number_lt)

theorem refill_le (now : Int) : (b.refill limits now).tokens ≤ limits.capacity := by
  rw [refill_tokens]
  exact min_le_right _ _

/-- **A full bucket covers a cost** just if it covers what stands for it. -/
theorem covers_standIn {cost : Reading} (hcost : Limiter.isCost cost = true) (now : Int) :
    ((b.refill limits now).map number).covers cost =
      (b.refill limits now).covers (cost.standIn limits.capacity) := by
  cases cost with
  | number x => exact covers_map _ x
  | notANumber => cases hcost
  | infinite positive =>
    cases positive with
    | false => cases hcost
    | true =>
      have hfull := b.refill_le limits now
      have hgreater := le_max_left limits.capacity 0
      have hslack : slack < 1 := by
        rw [slack_eq]
        norm_num
      refine (decide_eq_false (not_le.mpr ?_)).symm
      show _ + slack < max limits.capacity 0 + 1
      linarith

/-- Only a cost that is a number is covered. -/
theorem exists_number_of_covers {cost : Reading} (hcost : Limiter.isCost cost = true)
    (h : (b.map number).covers cost = true) : ∃ x, cost = number x := by
  cases cost with
  | number x => exact ⟨x, rfl⟩
  | notANumber => cases hcost
  | infinite positive =>
    cases positive with
    | false => cases hcost
    | true => cases h

end Bucket

/-! ## Limiters of readings -/

/-- What is done to a limiter, and when; the cost of an attempt may be any reading. -/
inductive Call where
  | consume (key : Key) (cost : Reading) (instant : Int)
  | prune (instant : Int)
  deriving Repr, DecidableEq

/-- When it is done. -/
def Call.instant : Call → Int
  | consume _ _ t => t
  | prune t => t

/-- The operation on numbers that a call stands for where the keys have some capacities. -/
def Call.standIn (capacity : Key → Rat) : Call → Operation
  | consume key cost t => .consume key (cost.standIn (capacity key)) t
  | prune t => .prune t

namespace Limiter

/-- The limiter after a call. -/
def afterCall (l : Limiter Reading) : Call → Limiter Reading
  | .consume key cost t => (l.consume key cost t).2
  | .prune t => (l.prune t).2

/-- The limiter after some calls in order. -/
def runCalls (l : Limiter Reading) (calls : List Call) : Limiter Reading :=
  calls.foldl afterCall l

/-- The limiter that the settings ask for, with their limits read as they are. -/
def ofReadings (c : Config.RateLimits) : Limiter Reading :=
  .fresh (c.client.map ofFloat) (c.identity.map ofFloat)

variable {l : Limiter Reading} {m : Limiter Rat}

/-- **A limiter of readings that holds the same numbers** as one of rational numbers. -/
structure Mirrors (l : Limiter Reading) (m : Limiter Rat) : Prop where
  client : l.client = m.client.map number
  identity : l.identity = m.identity.map number
  find? (key : Key) : l.buckets.find? key = (m.buckets.find? key).map (Bucket.map number)

theorem mirrors_fresh (client identity : Limits Rat) :
    Mirrors (fresh (client.map number) (identity.map number)) (fresh client identity) :=
  ⟨rfl, rfl, fun _ => rfl⟩

/-- **Settings that are not refused** have limits that are numbers. -/
theorem mirrors_ofReadings {c : Config} (h : c.check = .ok ()) :
    (ofReadings c.rateLimit).Mirrors (ofSettings c.rateLimit) := by
  obtain ⟨hclient, hidentity⟩ := Config.isUsable_of_check h
  unfold ofReadings
  rw [Limits.map_ofFloat hclient, Limits.map_ofFloat hidentity]
  exact mirrors_fresh _ _

namespace Mirrors

theorem limits_eq (h : l.Mirrors m) (key : Key) : l.limits key = (m.limits key).map number := by
  cases key with
  | client => exact h.client
  | identity => exact h.identity

theorem bucket_eq (h : l.Mirrors m) (key : Key) (now : Int) :
    l.bucket key now = (m.bucket key now).map number := by
  unfold bucket
  rw [h.find? key, h.limits_eq key]
  cases m.buckets.find? key <;> rfl

theorem put (h : l.Mirrors m) (key : Key) (b : Bucket Rat) :
    Mirrors { l with buckets := l.buckets.put key (b.map number) }
      { m with buckets := m.buckets.put key b } where
  client := h.client
  identity := h.identity
  find? k := by
    rw [Table.find?_put, Table.find?_put, h.find? k]
    split <;> rfl

/-- **An attempt goes the same way** with both, with the number that stands for its cost. -/
theorem consume (h : l.Mirrors m) (key : Key) (cost : Reading) (now : Int) :
    let c := cost.standIn (m.limits key).capacity
    (l.consume key cost now).1 = (m.consume key c now).1.map number ∧
      (l.consume key cost now).2.Mirrors (m.consume key c now).2 := by
  intro c
  have hsame : isCost c = isCost cost := isCost_standIn _ cost
  have hrefill : (l.bucket key now).refill (l.limits key) now =
      ((m.bucket key now).refill (m.limits key) now).map number := by
    rw [h.bucket_eq, h.limits_eq, Bucket.refill_map]
  cases hcost : isCost cost with
  | false =>
    rw [consume_of_not_isCost hcost, consume_of_not_isCost (hsame.trans hcost), h.bucket_eq]
    exact ⟨rfl, h⟩
  | true =>
    have hcovers := Bucket.covers_standIn (m.bucket key now) (m.limits key) hcost now
    rw [← hrefill] at hcovers
    cases hc : ((m.bucket key now).refill (m.limits key) now).covers c with
    | false =>
      rw [consume_of_not_covers hcost (hcovers.trans hc),
        consume_of_not_covers (hsame.trans hcost) hc, hrefill]
      exact ⟨rfl, h.put key _⟩
    | true =>
      have hcovered := hcovers.trans hc
      obtain ⟨x, rfl⟩ := Bucket.exists_number_of_covers _ hcost (hrefill ▸ hcovered)
      rw [consume_of_covers hcost hcovered, consume_of_covers (hsame.trans hcost) hc, hrefill,
        h.limits_eq, Bucket.spend_map]
      exact ⟨rfl, h.put key _⟩

/-- **A pruning goes the same way** with both. -/
theorem prune (h : l.Mirrors m) (now : Int) : (l.prune now).2.Mirrors (m.prune now).2 where
  client := h.client
  identity := h.identity
  find? key := by
    rw [Limiter.prune, Limiter.prune, Table.find?_choose, Table.find?_choose, h.find? key]
    cases m.buckets.find? key with
    | none => rfl
    | some b =>
      simp only [Option.map_some, Option.bind_some, h.limits_eq, Bucket.refill_map,
        Bucket.isFull_map]
      split <;> rfl

/-- **A call goes the same way** with both. -/
theorem afterCall (h : l.Mirrors m) (call : Call) :
    (l.afterCall call).Mirrors (m.after (call.standIn fun key => (m.limits key).capacity)) := by
  cases call with
  | consume key cost now => exact (h.consume key cost now).2
  | prune now => exact h.prune now

/-- **A run goes the same way** with both. -/
theorem run (h : l.Mirrors m) (calls : List Call) : (l.runCalls calls).Mirrors
    (m.run (calls.map (Call.standIn fun key => (m.limits key).capacity))) := by
  induction calls generalizing l m with
  | nil => exact h
  | cons call calls ih =>
    have hrest := ih (h.afterCall call)
    simp only [limits_after] at hrest
    exact hrest

end Mirrors

/-- **After any calls** a limiter of readings mirrors one of rational numbers after some
operations. -/
theorem exists_mirrors_runCalls {c : Config} (hc : c.check = .ok ()) (calls : List Call) :
    ∃ ops, ((ofReadings c.rateLimit).runCalls calls).Mirrors ((ofSettings c.rateLimit).run ops) :=
  ⟨_, (mirrors_ofReadings hc).run calls⟩

end Limiter

end MailScreen.RateLimit
