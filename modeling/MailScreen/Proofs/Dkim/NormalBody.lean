import MailScreen.Proofs.Dkim.Squeezed
import MailScreen.Proofs.Text.Split

/-!
# Canonical bodies

A canonical body is read line by line and written line by line, so all that is said of it is said of
its lines.

* `body_eq`: a canonical body is what is kept of the lines of a body (`keptLines`), written with
  line ends.
* `body_cases` says what it looks like; `body_eq_self_iff`: such bodies and no others are left as
  they are.
* `body_body`: a form may be made of another one that it takes for the body itself.
* `linePieces_completed`, `keptLines_append_ends`: how lines end does not matter, nor how many empty
  ones stand at the end.
* `body_normal` puts this together.
-/

namespace MailScreen.Dkim

open MailScreen.Text

/-! ## Lines -/

/-- The lines of a body without line ends, and what stands behind the last line feed. -/
def linePieces (bytes : List UInt8) : List (List UInt8) :=
  (pieces (· == 10) bytes).map (dropFinal 13)

variable {bytes bytes' : List UInt8} {line : List UInt8} {lines : List (List UInt8)}
  {form form' : Form}

theorem linePieces_append (a b : List UInt8) :
    linePieces (a ++ 10 :: b) = linePieces a ++ linePieces b := by
  rw [linePieces, pieces_append_cons rfl, List.map_append]
  rfl

theorem linePieces_nil : linePieces [] = [[]] := rfl

theorem lineFeed_not_mem_linePieces (h : line ∈ linePieces bytes) : 10 ∉ line :=
  not_mem_of_mem_map_dropFinal h

theorem linePieces_eq_singleton (h : 10 ∉ line) : linePieces line = [dropFinal 13 line] := by
  rw [linePieces, pieces_eq_singleton (beq_false_of_not_mem h), List.map_singleton]

theorem dropFinal_concat (line : List UInt8) (b : UInt8) : dropFinal b (line ++ [b]) = line := by
  simp [dropFinal]

theorem dropFinal_of_last {b : UInt8} (h : line.getLast? ≠ some b) : dropFinal b line = line := by
  simp [dropFinal, h]

/-- A line with its line end in front of other text. -/
theorem linePieces_line (h : 10 ∉ line) (rest : List UInt8) :
    linePieces (line ++ lineEnd ++ rest) = line :: linePieces rest := by
  have hcr : 10 ∉ line ++ [13] := by simpa using h
  have hsplit : line ++ lineEnd ++ rest = (line ++ [13]) ++ 10 :: rest := by simp [lineEnd]
  rw [hsplit, linePieces_append, linePieces_eq_singleton hcr, dropFinal_concat]
  rfl

/-- **Lines that are written with line ends** are read back. -/
theorem linePieces_flatMap (h : ∀ line ∈ lines, 10 ∉ line) :
    linePieces (lines.flatMap (· ++ lineEnd)) = lines ++ [[]] := by
  induction lines with
  | nil => rfl
  | cons line lines ih =>
    obtain ⟨hline, hlines⟩ := List.forall_mem_cons.mp h
    rw [List.flatMap_cons, linePieces_line hline, ih hlines]
    rfl

/-! ## The lines that are kept -/

/-- The lines of a canonical body. -/
def keptLines (form : Form) (bytes : List UInt8) : List (List UInt8) :=
  dropEndWhile List.isEmpty ((linePieces bytes).map (bodyLine form))

/-- A canonical body with these lines. -/
def written (form : Form) (lines : List (List UInt8)) : List UInt8 :=
  if lines.isEmpty && form == .simple then lineEnd else lines.flatMap (· ++ lineEnd)

theorem bodyLine_nil (form : Form) : bodyLine form [] = [] := by
  cases form <;> rfl

theorem bodyLine_of_isEmpty (form : Form) (h : line.isEmpty = true) :
    (bodyLine form line).isEmpty = true := by
  rw [List.isEmpty_iff.mp h, bodyLine_nil]
  rfl

/-- The last line feed may be left in place, as empty lines at the end are dropped anyway. -/
theorem keptLines_eq (form : Form) (bytes : List UInt8) :
    dropEndWhile List.isEmpty ((bodyLines bytes).map (bodyLine form)) = keptLines form bytes := by
  unfold keptLines bodyLines
  by_cases hlast : bytes.getLast? = some 10
  · obtain ⟨front, rfl⟩ := List.getLast?_eq_some_iff.mp hlast
    have hempty : ∀ line ∈ [([] : List UInt8)].map (bodyLine form), line.isEmpty = true := by
      simp [bodyLine_nil]
    rw [if_neg (by simp), dropFinal_concat, linePieces_append, linePieces_nil, List.map_append,
      dropEndWhile_append_of_forall hempty]
    rfl
  · rw [dropFinal_of_last hlast]
    cases bytes with
    | nil => simp [linePieces_nil, bodyLine_nil, dropEndWhile]
    | cons b bytes => rfl

/-- **A canonical body** is what is kept of its lines. -/
theorem body_eq (form : Form) (bytes : List UInt8) :
    body form bytes = written form (keptLines form bytes) := by
  rw [← keptLines_eq]
  rfl

theorem exists_linePieces_written (form : Form) (h : ∀ line ∈ lines, 10 ∉ line) :
    ∃ ends, linePieces (written form lines) = lines ++ ends ∧ ∀ e ∈ ends, e.isEmpty = true := by
  unfold written
  split
  · rename_i hempty
    rw [Bool.and_eq_true, List.isEmpty_iff] at hempty
    exact ⟨[[], []], by rw [hempty.1]; rfl, by simp⟩
  · exact ⟨[[]], linePieces_flatMap h, by simp⟩

/-- What is kept of lines that were written. -/
theorem keptLines_written (h : ∀ line ∈ lines, 10 ∉ line) :
    keptLines form' (written form lines) =
      dropEndWhile List.isEmpty (lines.map (bodyLine form')) := by
  obtain ⟨ends, heq, hends⟩ := exists_linePieces_written form h
  have hdropped : ∀ e ∈ ends.map (bodyLine form'), e.isEmpty = true := by
    simpa using fun e he => by simpa using bodyLine_of_isEmpty form' (hends e he)
  rw [keptLines, heq, List.map_append, dropEndWhile_append_of_forall hdropped]

theorem lineFeed_not_mem_bodyLine (form : Form) (h : 10 ∉ line) : 10 ∉ bodyLine form line := by
  cases form with
  | simple => exact h
  | relaxed =>
    intro hmem
    rcases mem_of_mem_squeezeFrom hmem with hmem | ⟨hmem, -⟩
    · simp at hmem
    · exact h hmem

theorem lineFeed_not_mem_keptLines (h : line ∈ keptLines form bytes) : 10 ∉ line := by
  have hmem := (dropEndWhile_isPrefix _ _).subset h
  obtain ⟨piece, hpiece, rfl⟩ := List.mem_map.mp hmem
  exact lineFeed_not_mem_bodyLine form (lineFeed_not_mem_linePieces hpiece)

/-- **A canonical body made canonical in another form** is what the other form makes of the body, if
it takes the lines of the first for the lines themselves. -/
theorem body_body (h : ∀ line, bodyLine form' (bodyLine form line) = bodyLine form' line)
    (bytes : List UInt8) : body form' (body form bytes) = body form' bytes := by
  have hempty : ∀ line : List UInt8, line.isEmpty = true → (bodyLine form' line).isEmpty = true :=
    fun line => bodyLine_of_isEmpty form'
  have hkept : keptLines form' (body form bytes) = keptLines form' bytes := by
    rw [body_eq, keptLines_written fun line => lineFeed_not_mem_keptLines, keptLines,
      dropEndWhile_map_dropEndWhile hempty, List.map_map, keptLines]
    exact congrArg (fun f => dropEndWhile _ ((linePieces bytes).map f)) (funext h)
  rw [body_eq, hkept, body_eq]

/-! ## Normal forms -/

/-- The canonical form of a body of which nothing is left. -/
def blank : Form → List UInt8
  | .simple => lineEnd
  | .relaxed => []

/-- What the lines of a canonical body are like. -/
structure AreCanonical (form : Form) (lines : List (List UInt8)) : Prop where
  ne_nil : lines ≠ []
  last : lines.getLast? ≠ some []
  noLineFeed : ∀ line ∈ lines, 10 ∉ line
  /-- No tab, no two spaces side by side, and none at the end. -/
  squeezed : form = .relaxed → ∀ line ∈ lines, IsSqueezed isSpaceByte 32 line

theorem written_nil (form : Form) : written form [] = blank form := by
  cases form <;> rfl

theorem written_of_ne_nil (h : lines ≠ []) :
    written form lines = lines.flatMap (· ++ lineEnd) := by
  rw [written, List.isEmpty_eq_false_iff.mpr h]
  rfl

theorem areCanonical_keptLines (h : keptLines form bytes ≠ []) :
    AreCanonical form (keptLines form bytes) where
  ne_nil := h
  last hlast := by simpa using getLast?_dropEndWhile_not _ _ hlast
  noLineFeed _ := lineFeed_not_mem_keptLines
  squeezed hform line hline := by
    subst hform
    obtain ⟨piece, -, rfl⟩ := List.mem_map.mp ((dropEndWhile_isPrefix _ _).subset hline)
    exact isSqueezed_squeeze isSpaceByte 32 piece

/-- Canonical lines are kept as they are. -/
theorem AreCanonical.keptLines_written (h : AreCanonical form lines) :
    keptLines form (written form lines) = lines := by
  have hline : ∀ line ∈ lines, bodyLine form line = line := fun line hline => by
    cases form with
    | simple => rfl
    | relaxed => exact (h.squeezed rfl line hline).squeeze_eq
  have hlast : ∀ line, lines.getLast? = some line → line.isEmpty = false := fun line hlast => by
    rw [List.isEmpty_eq_false_iff]
    rintro rfl
    exact h.last hlast
  rw [Dkim.keptLines_written h.noLineFeed, List.map_congr_left hline, List.map_id',
    dropEndWhile_eq_self hlast]

/-- Each line of a body is empty in the form. -/
def IsVoid (form : Form) (bytes : List UInt8) : Prop :=
  ∀ line ∈ bodyLines bytes, bodyLine form line = []

theorem keptLines_eq_nil_iff : keptLines form bytes = [] ↔ IsVoid form bytes := by
  rw [← keptLines_eq, dropEndWhile_eq_nil_iff]
  simp [IsVoid]

/-- **What a canonical body looks like**, with lines that are left and without. -/
theorem body_cases (form : Form) (bytes : List UInt8) :
    IsVoid form bytes ∧ body form bytes = blank form ∨
      ¬ IsVoid form bytes ∧ ∃ lines, AreCanonical form lines ∧
        body form bytes = lines.flatMap (· ++ lineEnd) := by
  rw [← keptLines_eq_nil_iff, body_eq]
  by_cases h : keptLines form bytes = []
  · exact .inl ⟨h, by rw [h, written_nil]⟩
  · exact .inr ⟨h, _, areCanonical_keptLines h, written_of_ne_nil h⟩

/-- A canonical body. -/
def IsNormal (form : Form) (bytes : List UInt8) : Prop :=
  bytes = blank form ∨ ∃ lines, AreCanonical form lines ∧ bytes = lines.flatMap (· ++ lineEnd)

/-- **Canonical bodies are those that are left as they are.** -/
theorem body_eq_self_iff : body form bytes = bytes ↔ IsNormal form bytes := by
  constructor
  · intro h
    rw [← h]
    exact (body_cases form bytes).imp And.right And.right
  · rintro (rfl | ⟨lines, hlines, rfl⟩)
    · cases form <;> rfl
    · rw [← written_of_ne_nil hlines.ne_nil, body_eq, hlines.keptLines_written]

/-! ## Line ends -/

/-- Some line feeds that do not follow a carriage return are given one; `afterCr` says whether the
bytes themselves follow one. -/
inductive Completes : Bool → List UInt8 → List UInt8 → Prop
  | nil (afterCr : Bool) : Completes afterCr [] []
  /-- This byte stays as it is. -/
  | keep {afterCr : Bool} {b : UInt8} {bytes bytes' : List UInt8}
      (h : Completes (b == 13) bytes bytes') : Completes afterCr (b :: bytes) (b :: bytes')
  /-- This line feed is given a carriage return. -/
  | complete {bytes bytes' : List UInt8} (h : Completes false bytes bytes') :
      Completes false (10 :: bytes) (13 :: 10 :: bytes')

/-- **A line feed may be given its carriage return**: the lines stay. The induction is on the bytes
behind a part of a line that has been read. -/
theorem linePieces_completed {afterCr : Bool} (h : Completes afterCr bytes bytes')
    (line : List UInt8) (hline : 10 ∉ line) (hlast : line.getLast? = some 13 ↔ afterCr = true) :
    linePieces (line ++ bytes') = linePieces (line ++ bytes) := by
  induction h generalizing line with
  | nil => rfl
  | @keep afterCr b bytes bytes' h ih =>
    by_cases hb : b = 10
    · subst hb
      rw [linePieces_append, linePieces_append]
      exact congrArg _ (ih [] (by simp) (by simp))
    · have hnext : (line ++ [b]).getLast? = some 13 ↔ (b == 13) = true := by simp
      simpa using ih (line ++ [b]) (by simp [hline, Ne.symm hb]) hnext
  | @complete bytes bytes' h ih =>
    have hstay : dropFinal 13 line = line := dropFinal_of_last (by simp [hlast])
    have hend : line ++ 13 :: 10 :: bytes' = line ++ lineEnd ++ bytes' := by simp [lineEnd]
    have hrest : linePieces bytes' = linePieces bytes := ih [] (by simp) (by simp)
    rw [hend, linePieces_line hline, linePieces_append, linePieces_eq_singleton hline, hstay, hrest]
    rfl

/-- Line ends alone are empty lines. -/
theorem eq_nil_of_mem_linePieces {ends : List (List UInt8)}
    (h : ∀ e ∈ ends, e = [10] ∨ e = lineEnd) : ∀ line ∈ linePieces ends.flatten, line = [] := by
  induction ends with
  | nil => simp [linePieces_nil]
  | cons e ends ih =>
    obtain ⟨he, hends⟩ := List.forall_mem_cons.mp h
    have hfirst : linePieces (e ++ ends.flatten) = [] :: linePieces ends.flatten := by
      rcases he with rfl | rfl
      · exact linePieces_append [] ends.flatten
      · exact @linePieces_line [] (by simp) ends.flatten
    rw [List.flatten_cons, hfirst]
    exact List.forall_mem_cons.mpr ⟨rfl, ih hends⟩

/-- **Line ends may be added** to a body that ends in one. -/
theorem keptLines_append_ends {ends : List (List UInt8)} (h : ∀ e ∈ ends, e = [10] ∨ e = lineEnd)
    (hbytes : bytes = [] ∨ bytes.getLast? = some 10) :
    keptLines form (bytes ++ ends.flatten) = keptLines form bytes := by
  have hdropped : ∀ line ∈ (linePieces ends.flatten).map (bodyLine form), line.isEmpty = true := by
    intro line hline
    obtain ⟨piece, hpiece, rfl⟩ := List.mem_map.mp hline
    rw [eq_nil_of_mem_linePieces h piece hpiece, bodyLine_nil]
    rfl
  rcases hbytes with rfl | hlast
  · have hnone : keptLines form [] = [] :=
      dropEndWhile_eq_nil_iff.mpr (by simp [linePieces_nil, bodyLine_nil])
    rw [hnone, List.nil_append]
    exact dropEndWhile_eq_nil_iff.mpr hdropped
  · obtain ⟨front, rfl⟩ := List.getLast?_eq_some_iff.mp hlast
    unfold keptLines
    rw [List.append_assoc, List.singleton_append, linePieces_append, linePieces_append,
      List.map_append, List.map_append, dropEndWhile_append_of_forall hdropped,
      dropEndWhile_append_of_forall (by simp [linePieces_nil, bodyLine_nil])]

/-- **The canonical body is a normal form.** Made canonical again it stays. It is blank if every
line of the body is empty in the form; otherwise it is made of lines with line ends, the last of
which is not empty, and in the relaxed form blanks stand in them only as single spaces before other
bytes. The relaxed form is one of the simple form too. A line feed may be given a carriage return,
and line ends may be added to a body that ends in one. -/
theorem body_normal (form : Form) (bytes : List UInt8) :
    body form (body form bytes) = body form bytes ∧
    (IsVoid form bytes ∧ body form bytes = blank form ∨
      ¬ IsVoid form bytes ∧ ∃ lines, AreCanonical form lines ∧
        body form bytes = lines.flatMap (· ++ lineEnd)) ∧
    body .relaxed (body .simple bytes) = body .relaxed bytes ∧
    (∀ bytes', Completes false bytes bytes' → body form bytes' = body form bytes) ∧
    (∀ ends : List (List UInt8), (∀ e ∈ ends, e = [10] ∨ e = lineEnd) →
      bytes = [] ∨ bytes.getLast? = some 10 →
        body form (bytes ++ ends.flatten) = body form bytes) := by
  refine ⟨body_eq_self_iff.mpr ((body_cases form bytes).imp And.right And.right),
    body_cases form bytes, body_body (fun _ => rfl) bytes, fun bytes' h => ?_,
    fun ends h hbytes => ?_⟩
  · have hlines : linePieces bytes' = linePieces bytes :=
      linePieces_completed h [] (by simp) (by simp)
    rw [body_eq, body_eq, keptLines, keptLines, hlines]
  · rw [body_eq, body_eq, keptLines_append_ends h hbytes]

/-- Two line feeds of which the first is given a carriage return, and more line ends. -/
theorem body_normal_blanks :
    let bytes : List UInt8 := [97, 32, 9, 98, 32, 10, 13, 10]
    let bytes' : List UInt8 := [97, 32, 9, 98, 32, 13, 10, 13, 10]
    body .relaxed bytes = [97, 32, 98, 13, 10] ∧ Completes false bytes bytes' ∧
      body .relaxed bytes' = body .relaxed bytes ∧
      body .relaxed (bytes ++ [[10], [13, 10]].flatten) = body .relaxed bytes := by
  intro bytes bytes'
  obtain ⟨-, -, -, hcompleted, hends⟩ := body_normal .relaxed bytes
  have hfirst : Completes false bytes bytes' :=
    .keep (.keep (.keep (.keep (.keep (.complete (.keep (.keep (.nil _))))))))
  exact ⟨by decide, hfirst, hcompleted bytes' hfirst,
    hends [[10], [13, 10]] (by decide) (.inr (by decide))⟩

end MailScreen.Dkim
