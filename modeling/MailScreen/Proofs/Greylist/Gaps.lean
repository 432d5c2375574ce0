import MailScreen.Proofs.Greylist.History

/-!
# Only the gaps count

A store keeps four things about a sender and compares them in several ways. What it rules is what a
much smaller machine rules, which knows whether the sender is known and sees how long ago it tried
before.

* `Policy.step` is that machine: its two states, and what it makes of a gap. `Policy.watch` runs it
  over the instants of the attempts of one sender.
* `Entry.Shows` says which entry stands for which state.
* `attempt_see`: one attempt of an entry is one step of the machine.
* `rulings_eq_watch`: so is any history of a store, whatever else is in it.
-/

namespace MailScreen.Greylist

open MailScreen.Time

variable {p : Policy} {hash : List UInt8 → List UInt8} {key : List UInt8} {now : Int}

/-! ## The machine -/

/-- What is ruled on an attempt, and whether its sender is known then: by whether the sender was
known, and by the span since its attempt before. -/
def Policy.step (p : Policy) : Bool → Nat → Ruling × Bool
  | false, gap =>
    if p.minWait ≤ gap ∧ gap ≤ p.retryWindow then (.pass, true) else (.defer, false)
  | true, gap => if gap ≤ p.passTtl then (.pass, true) else (.defer, false)

/-- The last attempt of a sender: when it was, and whether the sender was known then. -/
structure Sighting where
  instant : Int
  known : Bool
  deriving Repr, DecidableEq

/-- One attempt. The first one of all is deferred; of any other the machine sees the gap. -/
def Policy.see (p : Policy) (last : Option Sighting) (now : Int) : Ruling × Sighting :=
  match last with
  | none => (.defer, ⟨now, false⟩)
  | some l =>
    let (ruling, known) := p.step l.known (elapsed l.instant now)
    (ruling, ⟨now, known⟩)

/-- Some attempts in order: what is ruled on each, and the last of them. -/
def Policy.watch (p : Policy) (last : Option Sighting) : List Int → List Ruling × Option Sighting
  | [] => ([], last)
  | now :: instants =>
    let (ruling, l) := p.see last now
    let (rulings, final) := p.watch (some l) instants
    (ruling :: rulings, final)

theorem watch_cons (last : Option Sighting) (now : Int) (instants : List Int) :
    p.watch last (now :: instants) =
      ((p.see last now).1 :: (p.watch (some (p.see last now).2) instants).1,
        (p.watch (some (p.see last now).2) instants).2) := rfl

theorem instant_see (last : Option Sighting) (now : Int) : (p.see last now).2.instant = now := by
  cases last <;> rfl

/-- What is remembered is the last attempt. -/
theorem instant_watch (last : Option Sighting) (instants : List Int) :
    (p.watch last instants).2.map (·.instant) =
      instants.getLast?.or (last.map (·.instant)) := by
  induction instants generalizing last with
  | nil => rfl
  | cons now instants ih =>
    rw [watch_cons, ih, Option.map_some, instant_see, List.getLast?_cons]
    cases instants.getLast? <;> rfl

/-! ## Entries -/

/-- How long an attempt is remembered, by whether its sender was known then. -/
def Policy.span (p : Policy) : Bool → Nat
  | true => p.passTtl
  | false => p.retryWindow

/-- An entry stands for an attempt: it was left by it. -/
structure Entry.Shows (p : Policy) (e : Entry) (l : Sighting) : Prop where
  lastSeen : e.lastSeen = l.instant
  passed : e.passed = l.known
  expiresAt : e.expiresAt = l.instant + p.span l.known
  /-- The wait of a sender that is not known begins with its last attempt. -/
  firstSeen : l.known = false → e.firstSeen = l.instant

theorem shows_fresh (p : Policy) (now : Int) : (Entry.fresh p now).Shows p ⟨now, false⟩ :=
  ⟨rfl, rfl, rfl, fun _ => rfl⟩

theorem shows_known (p : Policy) (e : Entry) (now : Int) : (e.known p now).Shows p ⟨now, true⟩ :=
  ⟨rfl, rfl, rfl, nofun⟩

/-- An entry expires when the gap becomes too long. -/
theorem Entry.Shows.expired_iff {e : Entry} {l : Sighting} (h : e.Shows p l)
    (hnow : l.instant ≤ now) : e.expiresAt < now ↔ p.span l.known < elapsed l.instant now := by
  have hgap : ((elapsed l.instant now : Nat) : Int) = now - l.instant :=
    Int.toNat_of_nonneg (Int.sub_nonneg.mpr hnow)
  rw [h.expiresAt]
  omega

/-- **One attempt of an entry is one step of the machine**, if it does not come before the last. -/
theorem attempt_see {entry : Option Entry} {last : Option Sighting}
    (h : Option.Rel (Entry.Shows p) entry last) (hnow : ∀ l ∈ last, l.instant ≤ now) :
    (attempt p entry now).1 = (p.see last now).1 ∧
      (attempt p entry now).2.Shows p (p.see last now).2 := by
  cases h with
  | none => exact ⟨rfl, shows_fresh p now⟩
  | @some e l h =>
    have hexpired := h.expired_iff (hnow l rfl)
    have hpassed := h.passed
    have hfirst := h.firstSeen
    obtain ⟨t, known⟩ := l
    cases known with
    | true =>
      by_cases hlate : e.expiresAt < now
      · have hgap : ¬ elapsed t now ≤ p.passTtl := Nat.not_le.mpr (hexpired.mp hlate)
        simp only [attempt, Policy.see, Policy.step, if_pos hlate, if_neg hgap]
        exact ⟨trivial, shows_fresh p now⟩
      · have hgap : elapsed t now ≤ p.passTtl := Nat.not_lt.mp (mt hexpired.mpr hlate)
        simp only [attempt, Policy.see, Policy.step, if_neg hlate, if_pos hgap, hpassed, if_true]
        exact ⟨trivial, shows_known p e now⟩
    | false =>
      have hsince : e.firstSeen = t := hfirst rfl
      by_cases hlate : e.expiresAt < now
      · have hgap : ¬ elapsed t now ≤ p.retryWindow := Nat.not_le.mpr (hexpired.mp hlate)
        simp only [attempt, Policy.see, Policy.step, if_pos hlate, hgap, and_false, if_false]
        exact ⟨trivial, shows_fresh p now⟩
      · have hgap : elapsed t now ≤ p.retryWindow := Nat.not_lt.mp (mt hexpired.mpr hlate)
        -- the wait is counted from the first attempt, which for such an entry is the last one
        by_cases hearly : elapsed t now < p.minWait
        · simp only [attempt, Policy.see, Policy.step, if_neg hlate, hpassed, hsince,
            if_pos hearly, Nat.not_le.mpr hearly, false_and, if_false, Bool.false_eq_true]
          exact ⟨trivial, shows_fresh p now⟩
        · simp only [attempt, Policy.see, Policy.step, if_neg hlate, hpassed, hsince,
            if_neg hearly, Nat.not_lt.mp hearly, hgap, and_self, if_true, if_false,
            Bool.false_eq_true]
          exact ⟨trivial, shows_known p e now⟩

/-! ## Histories -/

/-- The instants of those of some attempts that are recorded under a key. -/
def Policy.instants (p : Policy) (hash : List UInt8 → List UInt8) (key : List UInt8)
    (attempts : List Attempt) : List Int :=
  (attempts.filter (p.records hash key)).map (·.instant)

namespace Store

/-- What is ruled on those of some attempts that are recorded under a key. -/
def rulings (s : Store) (hash : List UInt8 → List UInt8) (key : List UInt8)
    (attempts : List Attempt) : List Ruling :=
  ((attempts.zip (s.findings hash attempts)).filter fun x => s.policy.records hash key x.1).map
    fun x => x.2.ruling

variable {s : Store} {a : Attempt}

theorem rulings_cons_of_records (h : s.policy.records hash key a = true)
    (attempts : List Attempt) : s.rulings hash key (a :: attempts) =
      (s.check hash a.request a.instant).1.ruling ::
        (s.after hash a).rulings hash key attempts := by
  rw [rulings, findings, List.zip_cons_cons, List.filter_cons, if_pos h, List.map_cons, rulings,
    policy_after]

theorem rulings_cons_of_not_records (h : s.policy.records hash key a = false)
    (attempts : List Attempt) : s.rulings hash key (a :: attempts) =
      (s.after hash a).rulings hash key attempts := by
  rw [rulings, findings, List.zip_cons_cons, List.filter_cons, if_neg (by simp [h]), rulings,
    policy_after]

/-- **A history of a store is a run of the machine**, from an entry that stands for its state. -/
theorem rulings_eq_watch_of_shows (hash : List UInt8 → List UInt8) {last : Option Sighting}
    {attempts : List Attempt}
    (h : Option.Rel (Entry.Shows s.policy) (s.entries.find? key) last)
    (hsorted : attempts.Pairwise fun a b => a.instant ≤ b.instant)
    (hlast : ∀ l ∈ last, ∀ a ∈ attempts, l.instant ≤ a.instant) :
    s.rulings hash key attempts = (s.policy.watch last (s.policy.instants hash key attempts)).1 ∧
      Option.Rel (Entry.Shows s.policy) ((s.run hash attempts).entries.find? key)
        (s.policy.watch last (s.policy.instants hash key attempts)).2 := by
  induction attempts generalizing s last with
  | nil => exact ⟨rfl, h⟩
  | cons a attempts ih =>
    obtain ⟨hfirst, hrest⟩ := List.pairwise_cons.mp hsorted
    have hlater : ∀ l ∈ last, ∀ b ∈ attempts, l.instant ≤ b.instant :=
      fun l hl b hb => hlast l hl b (List.mem_cons_of_mem a hb)
    have hpolicy : (s.after hash a).policy = s.policy := policy_after s a
    cases hrecords : s.policy.records hash key a with
    | false =>
      have hsame := find?_after_of_not_records hrecords
      have hrel : Option.Rel (Entry.Shows (s.after hash a).policy)
          ((s.after hash a).entries.find? key) last := by
        rwa [hsame, hpolicy]
      have hrun := ih hrel hrest hlater
      rw [hpolicy] at hrun
      rw [rulings_cons_of_not_records hrecords, run_cons, Policy.instants,
        List.filter_cons_of_neg (by simp [hrecords])]
      exact hrun
    | true =>
      obtain ⟨hruling, hshows⟩ : (s.attemptOf key a.instant).1 = (s.policy.see last a.instant).1 ∧
          (s.attemptOf key a.instant).2.Shows s.policy (s.policy.see last a.instant).2 :=
        attempt_see h fun l hl => hlast l hl a List.mem_cons_self
      have hfind := find?_after_of_records hrecords
      have hinstant : ∀ l ∈ some (s.policy.see last a.instant).2, ∀ b ∈ attempts,
          l.instant ≤ b.instant := by
        rintro l hl b hb
        obtain rfl := Option.some.inj hl
        rw [instant_see]
        exact hfirst b hb
      have hrel : Option.Rel (Entry.Shows (s.after hash a).policy)
          ((s.after hash a).entries.find? key) (some (s.policy.see last a.instant).2) := by
        rw [hfind, hpolicy]
        exact .some hshows
      have hrun := ih hrel hrest hinstant
      rw [hpolicy] at hrun
      rw [rulings_cons_of_records hrecords, ruling_of_records hrecords, run_cons, Policy.instants,
        List.filter_cons_of_pos hrecords, List.map_cons, watch_cons, hruling]
      exact ⟨congrArg _ hrun.1, hrun.2⟩

/-- **Only the gaps count.** Whatever requests a new store sees, in the order of their instants:
those that are recorded under one key are ruled on by the machine, which sees only the gaps between
them; and the entry of the key, once there is one, is that of the last of them. -/
theorem rulings_eq_watch (c : Config.Greylist) (hash : List UInt8 → List UInt8)
    (key : List UInt8) (attempts : List Attempt)
    (hsorted : attempts.Pairwise fun a b => a.instant ≤ b.instant) :
    let p := Policy.ofSettings c
    let times := p.instants hash key attempts
    (fresh p).rulings hash key attempts = (p.watch none times).1 ∧
      (p.watch none times).2.map (·.instant) = times.getLast? ∧
      Option.Rel (Entry.Shows p) (((fresh p).run hash attempts).entries.find? key)
        (p.watch none times).2 := by
  intro p times
  have hstart : Option.Rel (Entry.Shows p) ((fresh p).entries.find? key) none := .none
  obtain ⟨hrulings, hentry⟩ := rulings_eq_watch_of_shows (s := fresh p) hash hstart hsorted nofun
  refine ⟨hrulings, ?_, hentry⟩
  rw [instant_watch, Option.map_none, Option.or_none]

theorem rulings_eq_watch_interleaved :
    let p := Policy.ofSettings {}
    let request (name : String) (identity : Option String) : Request :=
      ⟨.v4 0xCB007105, "mx.b.c", some ⟨name, "b.c"⟩, ⟨"u", "d.e"⟩, identity, ⟨⟨[]⟩, []⟩⟩
    let attempt (name : String) (identity : Option String) (t : Int) : Attempt :=
      ⟨request name identity, t * 1000000000⟩
    let key := p.key id (request "a" none)
    let attempts := [attempt "a" none 0, attempt "x" none 1, attempt "a" none 299,
      attempt "a" (some "a") 598, attempt "a" none 599, attempt "x" none 600,
      attempt "A" none (599 + 3110400), attempt "a" none (600 + 2 * 3110400)]
    attempts.Pairwise (fun a b => a.instant ≤ b.instant) ∧
    (fresh p).rulings id key attempts = [.defer, .defer, .pass, .pass, .defer] ∧
    (fresh p).rulings id key attempts = (p.watch none (p.instants id key attempts)).1 ∧
    (p.watch none (p.instants id key attempts)).2.map (·.instant) =
      (p.instants id key attempts).getLast? ∧
    Option.Rel (Entry.Shows p) (((fresh p).run id attempts).entries.find? key)
      (p.watch none (p.instants id key attempts)).2 := by
  intro p request attempt key attempts
  have hsorted : attempts.Pairwise (fun a b => a.instant ≤ b.instant) := by decide
  refine ⟨hsorted, ?_, rulings_eq_watch {} id key attempts hsorted⟩
  decide +kernel

end Store

end MailScreen.Greylist
