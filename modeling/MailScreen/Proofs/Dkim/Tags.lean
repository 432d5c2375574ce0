import MailScreen.Dkim.Tags
import MailScreen.Proofs.Text.Split

/-!
# Written tag lists

Signatures and key records are written as `name=value; name=value; …`.

* `Tags.toChars` is that writing. `Tags.WellFormed` says of a list which names and values can be
  written so: no separator in either, no blank at the ends of a value, no name twice.
* `ofChars_toChars`: a written list is read back.
* `withoutSignature_toChars`: the value of the tag `b` at the end of a written list is emptied, and
  nothing else changes.
-/

namespace MailScreen.Dkim

open MailScreen.Text

namespace Tags

/-- A tag as it is written. -/
def tagChars (t : String × String) : List Char :=
  t.1.toList ++ '=' :: t.2.toList

/-- A tag list as it is written. -/
def toChars (ts : Tags) : List Char :=
  [';', ' '].intercalate (ts.map tagChars)

/-- A name that is read back as it was written. -/
structure IsName (name : List Char) : Prop where
  ne_nil : name ≠ []
  lower : lowerAscii name = name
  plain : ∀ c ∈ name, isBlank c = false ∧ c ≠ ';' ∧ c ≠ '='

instance (name : List Char) : Decidable (IsName name) :=
  decidable_of_iff (name ≠ [] ∧ lowerAscii name = name ∧
      name.all (fun c => decide (isBlank c = false ∧ c ≠ ';' ∧ c ≠ '=')) = true)
    ⟨fun ⟨h₁, h₂, h₃⟩ => ⟨h₁, h₂, forall_mem_of_all h₃⟩,
      fun ⟨h₁, h₂, h₃⟩ => ⟨h₁, h₂, List.all_eq_true.mpr fun c hc => decide_eq_true (h₃ c hc)⟩⟩

/-- A value that is read back as it was written, and stands on one line. -/
structure IsValue (value : List Char) : Prop where
  trimmed : Trimmed value
  plain : ∀ c ∈ value, c ≠ ';' ∧ c ≠ '\n'

/-- A list that is read back as it was written. -/
structure WellFormed (ts : Tags) : Prop where
  names : ∀ t ∈ ts, IsName t.1.toList
  values : ∀ t ∈ ts, IsValue t.2.toList
  distinct : (ts.map (·.1)).Nodup

theorem isValue_of_plain {value : List Char} (h : ∀ c ∈ value, isBlank c = false ∧ c ≠ ';') :
    IsValue value :=
  ⟨trimmed_of_no_blank fun c hc => (h c hc).1,
    fun c hc => ⟨(h c hc).2, ne_of_isBlank (h c hc).1 (by rfl)⟩⟩

theorem isValue_nil : IsValue [] :=
  isValue_of_plain (by simp)

/-! ## One tag -/

variable {t : String × String}

theorem IsName.trimmed_tagChars (hn : IsName t.1.toList) (hv : IsValue t.2.toList) :
    Trimmed (tagChars t) where
  head c hc := by
    obtain ⟨d, ds, hd⟩ := List.exists_cons_of_ne_nil hn.ne_nil
    obtain rfl : d = c := by simpa [tagChars, hd] using hc
    exact (hn.plain d (by rw [hd]; exact List.mem_cons_self)).1
  last c hc := by
    rw [tagChars, List.getLast?_append] at hc
    cases hval : t.2.toList with
    | nil =>
      obtain rfl : '=' = c := by simpa [hval] using hc
      rfl
    | cons d ds =>
      apply hv.trimmed.last
      simpa [hval, List.getLast?_cons] using hc

theorem plain_tagChars (hn : IsName t.1.toList) (hv : IsValue t.2.toList) :
    ∀ c ∈ tagChars t, (c == ';') = false := by
  intro c hc
  rw [tagChars, List.mem_append, List.mem_cons] at hc
  rw [beq_eq_false_iff_ne]
  rcases hc with hc | rfl | hc
  · exact (hn.plain c hc).2.1
  · decide
  · exact (hv.plain c hc).1

/-- A written tag stands on one line. -/
theorem no_lf_tagChars (hn : IsName t.1.toList) (hv : IsValue t.2.toList) :
    '\n' ∉ tagChars t := by
  intro hc
  rw [tagChars, List.mem_append, List.mem_cons] at hc
  rcases hc with hc | hc | hc
  · exact ne_of_isBlank (hn.plain _ hc).1 (by rfl) rfl
  · exact absurd hc (by decide)
  · exact (hv.plain _ hc).2 rfl

/-- A written tag is read back. -/
theorem tag?_tagChars (hn : IsName t.1.toList) (hv : IsValue t.2.toList) :
    tag? (tagChars t) = some t := by
  have hcut : cutFirst (· == '=') (tagChars t) = some (t.1.toList, t.2.toList) :=
    cutFirst_append_cons rfl (fun c hc => by simpa using (hn.plain c hc).2.2) _
  have hname : trim t.1.toList = t.1.toList :=
    trim_eq_self (trimmed_of_no_blank fun c hc => (hn.plain c hc).1)
  simp only [tag?, hcut, Option.map_some, hname, hn.lower, trim_eq_self hv.trimmed,
    String.ofList_toList]

/-! ## Reading back -/

theorem contains_eq_false {ts : Tags} {name : String} (h : name ∉ ts.map (·.1)) :
    ts.contains name = false := by
  rw [contains, get?, Option.isSome_eq_false_iff, Option.isNone_iff_eq_none,
    List.lookup_eq_none_iff]
  intro u hu
  rw [bne_iff_ne]
  rintro rfl
  exact h (List.mem_map_of_mem hu)

/-- The parts of a written list are read one after the other, whatever blanks stand around them. -/
theorem addParts_eq {ts : Tags} {parts : List (List Char)}
    (hparts : parts.map trim = ts.map tagChars) :
    ∀ before : Tags, WellFormed (before ++ ts) → addParts before parts = .ok (before ++ ts) := by
  induction parts generalizing ts with
  | nil =>
    intro before _
    obtain rfl : ts = [] := by simpa using hparts.symm
    rw [addParts, List.append_nil]
  | cons part parts ih =>
    intro before hwf
    cases ts with
    | nil => simp at hparts
    | cons t ts =>
      rw [List.map_cons, List.map_cons, List.cons.injEq] at hparts
      have hmem : t ∈ before ++ t :: ts := by simp
      have hnew : before.contains t.1 = false := by
        apply contains_eq_false
        have hd := hwf.distinct
        rw [List.map_append, List.map_cons, List.nodup_append] at hd
        exact fun hb => hd.2.2 t.1 hb t.1 List.mem_cons_self rfl
      have hrest : before ++ [t] ++ ts = before ++ t :: ts := by simp
      rw [addParts, hparts.1, if_neg (by simp [tagChars]),
        tag?_tagChars (hwf.names t hmem) (hwf.values t hmem)]
      simp only [hnew, Bool.false_eq_true, if_false]
      rw [ih hparts.2 (before ++ [t]) (by rw [hrest]; exact hwf), hrest]

theorem toChars_cons_cons (t u : String × String) (ts : Tags) :
    toChars (t :: u :: ts) = tagChars t ++ ';' :: ' ' :: toChars (u :: ts) := by
  rw [toChars, toChars, List.map_cons, List.map_cons, List.intercalate_cons_cons, List.append_assoc]
  rfl

/-- The pieces of a written list: the first tag, and the others with a space before them. -/
theorem pieces_toChars {ts : Tags} (t : String × String) (h : WellFormed (t :: ts)) :
    pieces (· == ';') (toChars (t :: ts)) =
      tagChars t :: ts.map fun u => ' ' :: tagChars u := by
  induction ts generalizing t with
  | nil =>
    rw [toChars, List.map_cons, List.map_nil, List.intercalate_singleton]
    exact pieces_eq_singleton (plain_tagChars (h.names t (by simp)) (h.values t (by simp)))
  | cons u ts ih =>
    have hu : WellFormed (u :: ts) :=
      ⟨fun v hv => h.names v (List.mem_cons_of_mem t hv),
        fun v hv => h.values v (List.mem_cons_of_mem t hv), (List.nodup_cons.mp h.distinct).2⟩
    rw [toChars_cons_cons, pieces_append_cons (by rfl),
      pieces_eq_singleton (plain_tagChars (h.names t (by simp)) (h.values t (by simp))),
      pieces_cons_of_neg (by rfl) (ih u hu)]
    rfl

/-- **A written list is read back.** -/
theorem ofChars_toChars {ts : Tags} (h : WellFormed ts) : ofChars (toChars ts) = .ok ts := by
  cases ts with
  | nil => rfl
  | cons t ts =>
    rw [ofChars, pieces_toChars t h]
    refine addParts_eq ?_ [] h
    have htrim : ∀ u ∈ t :: ts, trim (tagChars u) = tagChars u := fun u hu =>
      trim_eq_self ((h.names u hu).trimmed_tagChars (h.values u hu))
    rw [List.map_cons, List.map_cons, htrim t List.mem_cons_self, List.map_map]
    congr 1
    apply List.map_congr_left
    intro u hu
    rw [Function.comp_apply, trim_cons_blank (by rfl), htrim u (List.mem_cons_of_mem t hu)]

/-- A written list stands on one line. -/
theorem no_lf_toChars {ts : Tags} (h : ∀ t ∈ ts, IsName t.1.toList ∧ IsValue t.2.toList) :
    '\n' ∉ toChars ts := by
  induction ts with
  | nil => exact List.not_mem_nil
  | cons t ts ih =>
    have ht : '\n' ∉ tagChars t :=
      no_lf_tagChars (h t List.mem_cons_self).1 (h t List.mem_cons_self).2
    have hts : '\n' ∉ toChars ts := ih fun u hu => h u (List.mem_cons_of_mem t hu)
    cases ts with
    | nil =>
      rw [toChars, List.map_cons, List.map_nil, List.intercalate_singleton]
      exact ht
    | cons u us =>
      rw [toChars_cons_cons, List.mem_append, List.mem_cons, List.mem_cons]
      rintro (hc | hc | hc | hc)
      · exact ht hc
      · exact absurd hc (by decide)
      · exact absurd hc (by decide)
      · exact hts hc

/-! ## The text that is signed -/

/-- Joining the pieces of a written list gives the list. -/
theorem intercalate_pieces (t : String × String) (ts : Tags) :
    [';'].intercalate (tagChars t :: ts.map fun u => ' ' :: tagChars u) = toChars (t :: ts) := by
  induction ts generalizing t with
  | nil => rw [toChars, List.map_nil, List.map_cons, List.map_nil, List.intercalate_singleton,
      List.intercalate_singleton]
  | cons u ts ih =>
    have hspace : [';'].intercalate ((' ' :: tagChars u) :: ts.map fun v => ' ' :: tagChars v) =
        ' ' :: [';'].intercalate (tagChars u :: ts.map fun v => ' ' :: tagChars v) := by
      cases ts with
      | nil => rw [List.map_nil, List.intercalate_singleton, List.intercalate_singleton]
      | cons v ts => rw [List.map_cons, List.intercalate_cons_cons, List.intercalate_cons_cons]; rfl
    rw [List.map_cons, List.intercalate_cons_cons, hspace, ih, toChars_cons_cons,
      List.append_assoc]
    rfl

theorem dropWhile_isBlank_tagChars (hn : IsName t.1.toList) :
    (tagChars t).dropWhile isBlank = tagChars t := by
  obtain ⟨c, cs, hc⟩ := List.exists_cons_of_ne_nil hn.ne_nil
  have hb : isBlank c = false := (hn.plain c (by rw [hc]; exact List.mem_cons_self)).1
  rw [tagChars, hc, List.cons_append, List.dropWhile_cons, if_neg (by simp [hb])]

/-- Only the tag `b` is taken for the signature. -/
theorem signatureTag?_eq_none (hn : IsName t.1.toList) (hb : t.1 ≠ "b") {part : List Char}
    (hpart : part.dropWhile isBlank = tagChars t) : signatureTag? part = none := by
  obtain ⟨c, cs, hc⟩ := List.exists_cons_of_ne_nil hn.ne_nil
  rw [signatureTag?, hpart, tagChars, hc]
  cases cs with
  | nil =>
    have hlower : c.toLower = c := by simpa [hc, lowerAscii] using hn.lower
    have hne : c.toLower ≠ 'b' := by
      rw [hlower]
      rintro rfl
      exact hb (String.toList_inj.mp hc)
    simp [hne]
  | cons d ds =>
    have hd : d ≠ '=' := (hn.plain d (by rw [hc]; simp)).2.2
    simp [hd]

/-- The first tag `b` of a list of parts is the one that is emptied. -/
theorem emptyFirst?_append_cons {parts : List (List Char)} {part emptied : List Char}
    (hparts : ∀ q ∈ parts, signatureTag? q = none) (hpart : signatureTag? part = some emptied)
    (later : List (List Char)) :
    emptyFirst? (parts ++ part :: later) = some (parts ++ emptied :: later) := by
  induction parts with
  | nil => rw [List.nil_append, emptyFirst?, hpart, List.nil_append]
  | cons first parts ih =>
    rw [List.cons_append, emptyFirst?, hparts first List.mem_cons_self,
      ih fun q hq => hparts q (List.mem_cons_of_mem first hq)]
    rfl

/-- **Without its signature** a written list ends in an empty tag `b`. -/
theorem withoutSignature_toChars {ts : Tags} {value : String} (hts : ts ≠ [])
    (h : WellFormed (ts ++ [("b", value)])) :
    withoutSignature (String.ofList (toChars (ts ++ [("b", value)]))) =
      .ok (String.ofList (toChars (ts ++ [("b", "")]))) := by
  obtain ⟨t, us, rfl⟩ := List.exists_cons_of_ne_nil hts
  have hother : ∀ u ∈ t :: us, IsName u.1.toList ∧ u.1 ≠ "b" := by
    intro u hu
    refine ⟨h.names u (List.mem_append_left _ hu), fun e => ?_⟩
    have hd := h.distinct
    rw [List.map_append, List.nodup_append] at hd
    exact hd.2.2 u.1 (List.mem_map_of_mem hu) "b" (by simp) e
  have hblank : ∀ u : String × String, (' ' :: tagChars u).dropWhile isBlank =
      (tagChars u).dropWhile isBlank := fun u => by
    rw [List.dropWhile_cons, if_pos (by rfl)]
  have hfirst : emptyFirst? ((tagChars t :: us.map fun u => ' ' :: tagChars u) ++
      [' ' :: tagChars ("b", value)]) =
      some ((tagChars t :: us.map fun u => ' ' :: tagChars u) ++ [' ' :: tagChars ("b", "")]) := by
    have hlast : signatureTag? (' ' :: tagChars ("b", value)) =
        some (' ' :: tagChars ("b", "")) := by
      simp [signatureTag?, tagChars, isBlank]
    refine emptyFirst?_append_cons (fun part hpart => ?_) hlast []
    rcases List.mem_cons.mp hpart with rfl | hpart
    · have ht := hother t List.mem_cons_self
      exact signatureTag?_eq_none ht.1 ht.2 (dropWhile_isBlank_tagChars ht.1)
    · obtain ⟨u, hu, rfl⟩ := List.mem_map.mp hpart
      have hu := hother u (List.mem_cons_of_mem t hu)
      exact signatureTag?_eq_none hu.1 hu.2
        ((hblank u).trans (dropWhile_isBlank_tagChars hu.1))
  rw [List.cons_append] at h ⊢
  have hend : ∀ v : String, tagChars t :: (us ++ [("b", v)]).map (fun u => ' ' :: tagChars u) =
      (tagChars t :: us.map fun u => ' ' :: tagChars u) ++ [' ' :: tagChars ("b", v)] := by
    simp
  rw [withoutSignature, String.toList_ofList, pieces_toChars t h, hend, hfirst]
  simp only [← hend, intercalate_pieces, List.cons_append]

end Tags

end MailScreen.Dkim
