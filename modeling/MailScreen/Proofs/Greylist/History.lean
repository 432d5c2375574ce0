import MailScreen.Greylist.Store

/-!
# Histories of a store

A store sees one request after the other. `Store.run` is the store after some of them, and
`Store.findings` is what becomes of each.

* `policy_after`: the rules stay.
* `find?_after_of_records`, `find?_after_of_not_records`: one request changes the entry of the key
  under which it is recorded, and no other; an exempt one is recorded under none.
-/

namespace MailScreen.Greylist

variable {hash : List UInt8 → List UInt8} {key : List UInt8} {now : Int}

/-- A request, and when it is checked. -/
structure Attempt where
  request : Request
  instant : Int
  deriving Repr, DecidableEq

/-- Whether an attempt is recorded, and under this key. -/
def Policy.records (p : Policy) (hash : List UInt8 → List UInt8) (key : List UInt8)
    (a : Attempt) : Bool :=
  !p.exempts a.request && decide (p.key hash a.request = key)

namespace Store

/-- The store after an attempt. -/
def after (s : Store) (hash : List UInt8 → List UInt8) (a : Attempt) : Store :=
  (s.check hash a.request a.instant).2

/-- The store after some attempts in order. -/
def run (s : Store) (hash : List UInt8 → List UInt8) (attempts : List Attempt) : Store :=
  attempts.foldl (fun s a => s.after hash a) s

/-- What becomes of some attempts in order. -/
def findings (s : Store) (hash : List UInt8 → List UInt8) : List Attempt → List Finding
  | [] => []
  | a :: attempts =>
    (s.check hash a.request a.instant).1 :: (s.after hash a).findings hash attempts

theorem run_cons (s : Store) (a : Attempt) (attempts : List Attempt) :
    s.run hash (a :: attempts) = (s.after hash a).run hash attempts := rfl

variable {s : Store} {a : Attempt}

/-! ## One attempt -/

/-- An attempt of the entry of a key. -/
def attemptOf (s : Store) (key : List UInt8) (now : Int) : Ruling × Entry :=
  attempt s.policy (s.entries.find? key) now

theorem check_of_exempts (h : s.policy.exempts a.request = true) :
    s.check hash a.request a.instant = (⟨.pass, false⟩, s) := by
  rw [check, if_pos h]

theorem check_of_not_exempts (h : s.policy.exempts a.request = false) :
    s.check hash a.request a.instant =
      (⟨(s.attemptOf (s.policy.key hash a.request) a.instant).1, true⟩,
        ⟨s.policy, s.entries.put (s.policy.key hash a.request)
          (s.attemptOf (s.policy.key hash a.request) a.instant).2⟩) := by
  rw [check, if_neg (by simp [h])]
  rfl

/-- No attempt changes the rules. -/
theorem policy_after (s : Store) (a : Attempt) : (s.after hash a).policy = s.policy := by
  cases h : s.policy.exempts a.request with
  | true => rw [after, check_of_exempts h]
  | false => rw [after, check_of_not_exempts h]

theorem records_iff {p : Policy} : p.records hash key a = true ↔
    p.exempts a.request = false ∧ p.key hash a.request = key := by
  rw [Policy.records, Bool.and_eq_true, Bool.not_eq_true', decide_eq_true_eq]

/-- An attempt that is recorded under a key is an attempt of the entry of that key. -/
theorem ruling_of_records (h : s.policy.records hash key a = true) :
    (s.check hash a.request a.instant).1.ruling = (s.attemptOf key a.instant).1 := by
  obtain ⟨hexempts, rfl⟩ := records_iff.mp h
  rw [check_of_not_exempts hexempts]

theorem find?_after_of_records (h : s.policy.records hash key a = true) :
    (s.after hash a).entries.find? key = some (s.attemptOf key a.instant).2 := by
  obtain ⟨hexempts, rfl⟩ := records_iff.mp h
  rw [after, check_of_not_exempts hexempts]
  exact (Table.find?_put _ _ _ _).trans (if_pos rfl)

/-- An attempt that is not recorded under a key leaves its entry as it is. -/
theorem find?_after_of_not_records (h : s.policy.records hash key a = false) :
    (s.after hash a).entries.find? key = s.entries.find? key := by
  cases hexempts : s.policy.exempts a.request with
  | true => rw [after, check_of_exempts hexempts]
  | false =>
    have hkey : key ≠ s.policy.key hash a.request := by
      rintro rfl
      rw [records_iff.mpr ⟨hexempts, rfl⟩] at h
      cases h
    rw [after, check_of_not_exempts hexempts]
    exact (Table.find?_put _ _ _ _).trans (if_neg hkey)

end Store

end MailScreen.Greylist
