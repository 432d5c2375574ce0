/-!
# Tables

A table holds at most one value for each key. The order of its entries has no meaning.

* `find?_put`, `find?_choose` and `find?_empty` say what is found after each operation.
* `size_choose_le` says that choosing never adds an entry.
-/

namespace MailScreen

/-- Values by key. -/
structure Table (κ ν : Type) where
  entries : List (κ × ν)
  distinct : (entries.map (·.1)).Nodup
  deriving Repr

namespace Table

variable {κ ν : Type}

/-- The table without entries. -/
def empty : Table κ ν := ⟨[], List.nodup_nil⟩

/-- The number of entries. -/
def size (t : Table κ ν) : Nat := t.entries.length

/-- Whether there are no entries. -/
def isEmpty (t : Table κ ν) : Bool := t.entries.isEmpty

/-- The entry of a key with a new value, if it is to stay. -/
def chosen (f : κ → ν → Option ν) (e : κ × ν) : Option (κ × ν) :=
  (f e.1 e.2).map (e.1, ·)

theorem keys_filterMap_chosen (f : κ → ν → Option ν) (es : List (κ × ν)) :
    ((es.filterMap (chosen f)).map (·.1)).Sublist (es.map (·.1)) := by
  induction es with
  | nil => simp
  | cons e es ih =>
    rw [List.filterMap_cons]
    cases h : f e.1 e.2 with
    | none => simpa [chosen, h] using ih.cons e.1
    | some v => simpa [chosen, h] using ih

/-- The table of the entries that stay, with the values that `f` gives them. -/
def choose (t : Table κ ν) (f : κ → ν → Option ν) : Table κ ν where
  entries := t.entries.filterMap (chosen f)
  distinct := t.distinct.sublist (keys_filterMap_chosen f t.entries)

theorem size_choose_le (t : Table κ ν) (f : κ → ν → Option ν) : (t.choose f).size ≤ t.size :=
  List.length_filterMap_le _ _

variable [DecidableEq κ]

/-- The value of a key. -/
def find? (t : Table κ ν) (k : κ) : Option ν :=
  (t.entries.find? (·.1 = k)).map (·.2)

/-- The table in which a key has a value, whatever it had before. -/
def put (t : Table κ ν) (k : κ) (v : ν) : Table κ ν where
  entries := (k, v) :: t.entries.filter (·.1 ≠ k)
  distinct := by
    rw [List.map_cons, List.nodup_cons]
    refine ⟨by simp, ?_⟩
    exact t.distinct.sublist (List.filter_sublist.map _)

@[simp]
theorem find?_empty (k : κ) : (empty : Table κ ν).find? k = none := rfl

theorem find?_put (t : Table κ ν) (k l : κ) (v : ν) :
    (t.put k v).find? l = if l = k then some v else t.find? l := by
  unfold find? put
  by_cases h : l = k
  · simp [h]
  · rw [List.find?_cons_of_neg (by simpa using fun e => h e.symm), List.find?_filter, if_neg h]
    congr 2
    funext e
    by_cases he : e.1 = l <;> simp [he, h]

theorem find?_choose (t : Table κ ν) (f : κ → ν → Option ν) (k : κ) :
    (t.choose f).find? k = (t.find? k).bind (f k) := by
  obtain ⟨es, h⟩ := t
  unfold find? choose
  dsimp only
  induction es with
  | nil => rfl
  | cons e es ih =>
    rw [List.map_cons, List.nodup_cons] at h
    rw [List.filterMap_cons]
    by_cases hk : e.1 = k
    · subst hk
      have hnone : es.find? (·.1 = e.1) = none := by
        rw [List.find?_eq_none]
        exact fun x hx he => h.1 (by
          rw [← of_decide_eq_true he]
          exact List.mem_map_of_mem hx)
      cases hf : f e.1 e.2 with
      | none => simpa [chosen, hf, hnone] using ih h.2
      | some v => simp [chosen, hf]
    · cases hf : f e.1 e.2 with
      | none => simpa [chosen, hf, hk] using ih h.2
      | some v => simpa [chosen, hf, hk] using ih h.2

end Table

end MailScreen
