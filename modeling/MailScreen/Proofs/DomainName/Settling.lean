import MailScreen.Proofs.Mail.Domain
import Mathlib.Logic.Function.Iterate

/-!
# Normalizing again

The normal form of a name is not always its own normal form. First the blanks around the name go and
then the dots at its end, and before the dots there may be a blank, as in `a.com. .`, which only the
next normalization takes off.

* `gaps` counts the blanks that stand directly before a dot, where a name ends in blanks and dots.
* `gaps_normalize`: a normalization takes one of these gaps away, if there is one.
* `normalize_normalize_iff`: just the names without a gap have a normal form that stays as it is.
* `iterate_normalize_iff` is the same for any number of normalizations: each gap takes one more.
-/

namespace MailScreen.DomainName

open MailScreen.Text

variable {cs dots blanks : List Char}

/-! ## Blanks before dots -/

/-- How often a blank stands directly before a dot. -/
def blanksBeforeDots : List Char → Nat
  | [] => 0
  | c :: cs => (if isBlank c && cs.head? == some '.' then 1 else 0) + blanksBeforeDots cs

theorem blanksBeforeDots_of_no_blank (h : ∀ c ∈ cs, isBlank c = false) :
    blanksBeforeDots cs = 0 := by
  induction cs with
  | nil => rfl
  | cons c cs ih =>
    obtain ⟨hc, hcs⟩ := List.forall_mem_cons.mp h
    rw [blanksBeforeDots, hc, ih hcs]
    rfl

theorem blanksBeforeDots_cons_of_no_dot (c : Char) (h : ∀ d ∈ cs, d ≠ '.') :
    blanksBeforeDots (c :: cs) = 0 := by
  induction cs generalizing c with
  | nil =>
    rw [blanksBeforeDots, List.head?_nil, blanksBeforeDots]
    simp
  | cons d cs ih =>
    obtain ⟨hd, hcs⟩ := List.forall_mem_cons.mp h
    have hhead : ((d :: cs).head? == some '.') = false :=
      beq_false_of_ne fun hdot => hd (Option.some.inj hdot)
    rw [blanksBeforeDots, hhead, Bool.and_false, ih d hcs]
    rfl

/-- A text that is cut at one of its characters, which belongs to both parts. -/
theorem blanksBeforeDots_append_cons (front : List Char) (c : Char) (back : List Char) :
    blanksBeforeDots (front ++ c :: back) =
      blanksBeforeDots (front ++ [c]) + blanksBeforeDots (c :: back) := by
  induction front with
  | nil =>
    have hlone : blanksBeforeDots [c] = 0 := blanksBeforeDots_cons_of_no_dot c nofun
    rw [List.nil_append, List.nil_append, hlone, Nat.zero_add]
  | cons d front ih =>
    have hhead : (front ++ c :: back).head? = (front ++ [c]).head? := by
      cases front <;> rfl
    rw [List.cons_append, List.cons_append, blanksBeforeDots, blanksBeforeDots, hhead, ih,
      Nat.add_assoc]

/-- Blanks at the end stand before no dot. -/
theorem blanksBeforeDots_append_blanks (h : ∀ c ∈ blanks, isBlank c = true) (cs : List Char) :
    blanksBeforeDots (cs ++ blanks) = blanksBeforeDots cs := by
  have hdot : ∀ c ∈ blanks, c ≠ '.' := by
    rintro _ hc rfl
    exact absurd (h '.' hc) (by decide)
  rcases List.eq_nil_or_concat' cs with rfl | ⟨front, c, rfl⟩
  · cases blanks with
    | nil => rfl
    | cons c blanks =>
      exact blanksBeforeDots_cons_of_no_dot c (List.forall_mem_cons.mp hdot).2
  · rw [List.append_assoc, List.singleton_append, blanksBeforeDots_append_cons,
      blanksBeforeDots_cons_of_no_dot c hdot, Nat.add_zero]

theorem blanksBeforeDots_of_dots (h : ∀ c ∈ dots, (c == '.') = true) :
    blanksBeforeDots dots = 0 :=
  blanksBeforeDots_of_no_blank fun c hc => by rw [eq_of_beq (h c hc)]; decide

/-- Of some blanks and dots at the end, the last blank stands before the dots. -/
theorem blanksBeforeDots_append_dots {b : Char} (hlast : cs.getLast? = some b)
    (hb : isBlank b = true) (hne : dots ≠ []) (hdots : ∀ c ∈ dots, (c == '.') = true) :
    blanksBeforeDots (cs ++ dots) = blanksBeforeDots cs + 1 := by
  obtain ⟨front, rfl⟩ := List.getLast?_eq_some_iff.mp hlast
  obtain ⟨dot, rest, rfl⟩ := List.exists_cons_of_ne_nil hne
  obtain rfl : dot = '.' := eq_of_beq (hdots dot List.mem_cons_self)
  have hback : blanksBeforeDots (b :: '.' :: rest) = 1 := by
    rw [blanksBeforeDots, hb, blanksBeforeDots_of_dots hdots]
    rfl
  rw [List.append_assoc, List.singleton_append, blanksBeforeDots_append_cons, hback]

theorem blanksBeforeDots_lowerAscii (cs : List Char) :
    blanksBeforeDots (lowerAscii cs) = blanksBeforeDots cs := by
  induction cs with
  | nil => rfl
  | cons c cs ih =>
    have hhead : ((lowerAscii cs).head? == some '.') = (cs.head? == some '.') := by
      rw [Bool.eq_iff_iff, beq_iff_eq, beq_iff_eq, lowerAscii, List.head?_map]
      constructor
      · intro h
        obtain ⟨d, hd, hdot⟩ := Option.map_eq_some_iff.mp h
        rw [hd, eq_of_toLower_eq (by decide) hdot]
      · intro h
        rw [h]
        rfl
    show (if isBlank c.toLower && (lowerAscii cs).head? == some '.' then 1 else 0) +
      blanksBeforeDots (lowerAscii cs) = _
    rw [isBlank_toLower, hhead, ih, blanksBeforeDots]

/-! ## What a normalization takes off at the end -/

/-- Without blanks at the end, then without dots at the end. -/
def peeled (cs : List Char) : List Char :=
  dropEndWhile (· == '.') (dropEndWhile isBlank cs)

/-- The characters that are taken off at the end, sooner or later. -/
def isPeel (c : Char) : Bool :=
  isBlank c || c == '.'

theorem peeled_isPrefix (cs : List Char) : peeled cs <+: cs :=
  (dropEndWhile_isPrefix _ _).trans (dropEndWhile_isPrefix _ _)

/-- What is left of blanks and dots ends in a blank, if it is anything. -/
theorem isBlank_of_getLast?_peeled (h : ∀ c ∈ cs, isPeel c = true) {c : Char}
    (hc : (peeled cs).getLast? = some c) : isBlank c = true := by
  have hmem : c ∈ cs := (peeled_isPrefix cs).subset (List.mem_of_getLast? hc)
  refine (Bool.or_eq_true_iff.mp (h c hmem)).resolve_right fun hdot => ?_
  rw [getLast?_dropEndWhile_not _ _ hc] at hdot
  cases hdot

/-- **With the dots that go, the blank before them** is before no dot any more. If nothing is left,
no blank has been before a dot. -/
theorem blanksBeforeDots_eq_of_isPeel (h : ∀ c ∈ cs, isPeel c = true) :
    blanksBeforeDots cs = if peeled cs = [] then 0 else blanksBeforeDots (peeled cs) + 1 := by
  obtain ⟨blanks, hcs, hblanks⟩ := exists_eq_dropEndWhile_append isBlank cs
  obtain ⟨dots, hfront, hdots⟩ :=
    exists_eq_dropEndWhile_append (· == '.') (dropEndWhile isBlank cs)
  have hcount : blanksBeforeDots cs = blanksBeforeDots (peeled cs ++ dots) :=
    calc blanksBeforeDots cs = blanksBeforeDots (dropEndWhile isBlank cs ++ blanks) :=
          congrArg blanksBeforeDots hcs
      _ = blanksBeforeDots (dropEndWhile isBlank cs) := blanksBeforeDots_append_blanks hblanks _
      _ = blanksBeforeDots (peeled cs ++ dots) := congrArg blanksBeforeDots hfront
  rw [hcount]
  by_cases hnil : peeled cs = []
  · rw [if_pos hnil, hnil, List.nil_append, blanksBeforeDots_of_dots hdots]
  · rw [if_neg hnil]
    have hlast := List.getLast?_eq_some_getLast hnil
    have hblank := isBlank_of_getLast?_peeled h hlast
    refine blanksBeforeDots_append_dots hlast hblank ?_ hdots
    -- the last blank goes with the blanks at the end unless there are dots behind it
    rintro rfl
    rw [List.append_nil] at hfront
    have hfront : (dropEndWhile isBlank cs).getLast? = some ((peeled cs).getLast hnil) :=
      (congrArg List.getLast? hfront).trans hlast
    rw [getLast?_dropEndWhile_not _ _ hfront] at hblank
    cases hblank

theorem peeled_eq_nil_iff (h : ∀ c ∈ cs, isPeel c = true) :
    peeled cs = [] ↔ blanksBeforeDots cs = 0 := by
  rw [blanksBeforeDots_eq_of_isPeel h]
  split <;> simp [*]

theorem blanksBeforeDots_peeled (h : ∀ c ∈ cs, isPeel c = true) :
    blanksBeforeDots (peeled cs) = blanksBeforeDots cs - 1 := by
  rw [blanksBeforeDots_eq_of_isPeel h]
  split
  · rename_i hnil
    rw [hnil]
    rfl
  · rfl

/-- What stands before is left alone, if it does not end in a blank or in a dot. -/
theorem peeled_append {kept : List Char} (h : ∀ c, kept.getLast? = some c → isPeel c = false)
    (cs : List Char) : peeled (kept ++ cs) = kept ++ peeled cs := by
  cases hlast : kept.getLast? with
  | none => rw [List.getLast?_eq_none_iff.mp hlast, List.nil_append, List.nil_append]
  | some c =>
    obtain ⟨hblank, hdot⟩ := Bool.or_eq_false_iff.mp (h c hlast)
    rw [peeled, dropEndWhile_append_of_last hlast hblank,
      dropEndWhile_append_of_last (p := (· == '.')) hlast hdot, peeled]

/-! ## The ends of names -/

/-- What stands before the blanks and dots in which a name ends. -/
def core (cs : List Char) : List Char :=
  dropEndWhile isPeel (cs.dropWhile isBlank)

/-- The blanks and dots in which a name ends. -/
def peel (cs : List Char) : List Char :=
  (cs.dropWhile isBlank).rtakeWhile isPeel

theorem core_append_peel (cs : List Char) : core cs ++ peel cs = cs.dropWhile isBlank :=
  List.rdropWhile_append_rtakeWhile

theorem not_isPeel_of_getLast?_core {c : Char} (h : (core cs).getLast? = some c) :
    isPeel c = false :=
  getLast?_dropEndWhile_not _ _ h

theorem isPeel_of_mem_peel {c : Char} (h : c ∈ peel cs) : isPeel c = true :=
  List.mem_rtakeWhile_imp h

/-- **A name is stripped where it ends.** -/
theorem stripped_eq (cs : List Char) : stripped cs = core cs ++ peeled (peel cs) := by
  rw [← peeled_append fun _ => not_isPeel_of_getLast?_core, core_append_peel]
  rfl

/-- A name that was stripped does not begin with a blank. -/
theorem isBlank_of_head?_stripped {c : Char} (h : (stripped cs).head? = some c) :
    isBlank c = false := by
  obtain ⟨dots, hdots⟩ := dropEndWhile_isPrefix (· == '.') (trim cs)
  refine (trimmed_trim cs).head c ?_
  rw [← hdots]
  exact List.mem_head?_append_of_mem_head? h

theorem rtakeWhile_append_of_forall {p : Char → Bool} {back : List Char}
    (h : ∀ c ∈ back, p c = true) (front : List Char) :
    (front ++ back).rtakeWhile p = front.rtakeWhile p ++ back := by
  rw [List.rtakeWhile, List.rtakeWhile, List.reverse_append,
    List.takeWhile_append_of_pos fun c hc => h c (List.mem_reverse.mp hc), List.reverse_append,
    List.reverse_reverse]

theorem peel_stripped (cs : List Char) : peel (stripped cs) = peeled (peel cs) := by
  have hdropped : (stripped cs).dropWhile isBlank = stripped cs :=
    dropWhile_eq_self fun _ => isBlank_of_head?_stripped
  have hpeel : ∀ c ∈ peeled (peel cs), isPeel c = true := fun c hc =>
    isPeel_of_mem_peel ((peeled_isPrefix _).subset hc)
  have hcore : (core cs).rtakeWhile isPeel = [] := by
    refine List.rtakeWhile_eq_nil_iff.mpr fun hne => ?_
    rw [not_isPeel_of_getLast?_core (List.getLast?_eq_some_getLast hne)]
    exact Bool.false_ne_true
  rw [peel, hdropped, stripped_eq, rtakeWhile_append_of_forall hpeel, hcore, List.nil_append]

theorem isPeel_toLower (c : Char) : isPeel c.toLower = isPeel c := by
  have hdot : (c.toLower == '.') = (c == '.') := by
    rw [Bool.eq_iff_iff, beq_iff_eq, beq_iff_eq]
    exact ⟨eq_of_toLower_eq (by decide), fun h => by rw [h]; rfl⟩
  rw [isPeel, isPeel, isBlank_toLower, hdot]

theorem peel_lowerAscii (cs : List Char) : peel (lowerAscii cs) = lowerAscii (peel cs) := by
  have hblank : isBlank ∘ Char.toLower = isBlank := funext isBlank_toLower
  have hpeel : isPeel ∘ Char.toLower = isPeel := funext isPeel_toLower
  rw [peel, peel, lowerAscii, lowerAscii, List.dropWhile_map, List.rtakeWhile, List.rtakeWhile,
    ← List.map_reverse, List.takeWhile_map, ← List.map_reverse, hblank, hpeel]

/-! ## Names -/

/-- How often a blank stands directly before a dot where a name ends in blanks and dots. -/
def gaps (s : String) : Nat :=
  blanksBeforeDots (peel s.toList)

/-- **A normalization takes one gap away.** -/
theorem gaps_normalize (s : String) : gaps (normalize s) = gaps s - 1 := by
  rw [gaps, normalize, String.toList_ofList, normalizeChars, peel_lowerAscii,
    blanksBeforeDots_lowerAscii, peel_stripped, blanksBeforeDots_peeled fun _ => isPeel_of_mem_peel,
    gaps]

theorem trimmed_stripped_iff (cs : List Char) :
    Trimmed (stripped cs) ↔ blanksBeforeDots (peel cs) = 0 := by
  have hpeel : ∀ c ∈ peel cs, isPeel c = true := fun _ => isPeel_of_mem_peel
  rw [← peeled_eq_nil_iff hpeel]
  constructor
  · intro h
    by_contra hne
    have hlast := List.getLast?_eq_some_getLast hne
    have hname : (stripped cs).getLast? = some ((peeled (peel cs)).getLast hne) := by
      rw [stripped_eq, List.getLast?_append_of_ne_nil _ hne, hlast]
    have hblank := isBlank_of_getLast?_peeled hpeel hlast
    rw [h.last _ hname] at hblank
    cases hblank
  · intro h
    refine ⟨fun _ => isBlank_of_head?_stripped, fun c hc => ?_⟩
    rw [stripped_eq, h, List.append_nil] at hc
    exact (Bool.or_eq_false_iff.mp (not_isPeel_of_getLast?_core hc)).1

/-- A name in lower case with no dot at its end is its own normal form if there is no blank around
it. -/
theorem normalizeChars_eq_self_iff (hlast : ∀ c, cs.getLast? = some c → (c == '.') = false)
    (hlower : lowerAscii cs = cs) : normalizeChars cs = cs ↔ Trimmed cs := by
  constructor
  · intro h
    have hsublist : (trim cs).Sublist cs :=
      (dropEndWhile_isPrefix _ _).sublist.trans (List.dropWhile_sublist isBlank)
    have hlength : cs.length ≤ (trim cs).length := by
      have hstripped : (stripped cs).length = cs.length := by
        simpa [normalizeChars, lowerAscii] using congrArg List.length h
      rw [← hstripped]
      exact (dropEndWhile_isPrefix _ _).length_le
    rw [← hsublist.eq_of_length_le hlength]
    exact trimmed_trim cs
  · intro h
    rw [normalizeChars, stripped, trim_eq_self h, dropEndWhile_eq_self hlast, hlower]

/-- **Just the names without a gap** have a normal form that stays as it is. -/
theorem normalize_normalize_iff (s : String) :
    normalize (normalize s) = normalize s ↔ gaps s = 0 :=
  calc normalize (normalize s) = normalize s
    _ ↔ normalizeChars (normalizeChars s.toList) = normalizeChars s.toList := by
        rw [normalize, normalize, String.toList_ofList, String.ofList_inj]
    _ ↔ Trimmed (normalizeChars s.toList) :=
        normalizeChars_eq_self_iff (fun _ => ne_dot_of_getLast?) (lowerAscii_lowerAscii _)
    _ ↔ Trimmed (stripped s.toList) := trimmed_lowerAscii_iff
    _ ↔ gaps s = 0 := trimmed_stripped_iff s.toList

/-- **Each gap takes one normalization more.** -/
theorem iterate_normalize_iff (s : String) (n : Nat) :
    normalize^[n + 2] s = normalize^[n + 1] s ↔ gaps s ≤ n := by
  induction n generalizing s with
  | zero => exact (normalize_normalize_iff s).trans Nat.le_zero.symm
  | succ n ih =>
    have hnext := ih (normalize s)
    rw [← Function.iterate_succ_apply, ← Function.iterate_succ_apply, gaps_normalize] at hnext
    rw [hnext]
    omega

end MailScreen.DomainName
