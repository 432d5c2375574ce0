import MailScreen.Proofs.Dkim.SimpleForm

/-!
# Messages that are written

A message is written field by field, then an empty line, then the body. A value that is folded takes
more than one line, and the body may look like anything.

* `Folded.exists_lines`: a folded value is a first line and lines that continue it.
* `IsWrittenOn` relates fields to the lines that they are written on, and `exists_isWrittenOn` finds
  the lines of all fields that are such as reading gives.
* `splitBlank_bytes`: the body of a message that was sent stands behind its first empty line.
* `ofBytes_toBytes_iff`: a message is read as it was written just if its fields are such as reading
  gives, whatever its body is.
-/

namespace MailScreen.Mail

open MailScreen.Text Message Dkim

/-! ## A value and its lines -/

/-- What stands behind a line feed of a folded value is folded. -/
theorem Folded.behind {a b : List Char} (h : Folded (a ++ '\n' :: b)) : Folded b := by
  rintro x y rfl
  obtain ⟨hcr, hfold⟩ := h (a ++ '\n' :: x) y (by simp)
  refine ⟨?_, hfold⟩
  cases x with
  | nil => simp at hcr
  | cons c x => simpa [List.getLast?_append] using hcr

/-- **A folded value is a first line and lines that continue it.** -/
theorem Folded.exists_lines {value : List Char} (h : Folded value) :
    ∃ (first : List Char) (folds : List (List Char)),
      value = first ++ folds.flatMap ('\r' :: '\n' :: ·) ∧ '\n' ∉ first ∧
      ∀ line ∈ folds, '\n' ∉ line ∧ continues line = true := by
  induction hn : value.length using Nat.strong_induction_on generalizing value with
  | _ n ih =>
    by_cases hmem : '\n' ∈ value
    · obtain ⟨a, b, rfl, ha⟩ := List.eq_append_cons_of_mem hmem
      obtain ⟨hcr, c, hc, hfold⟩ := h a b rfl
      obtain ⟨front, rfl⟩ := List.getLast?_eq_some_iff.mp hcr
      have hshorter : b.length < n := by
        rw [← hn]
        simp
        omega
      obtain ⟨first, folds, rfl, hfirst, hfolds⟩ := ih b.length hshorter h.behind rfl
      -- a fold stands behind the line feed, so the next line is not empty
      have hcont : continues first = true := by
        cases first with
        | nil =>
          cases folds with
          | nil => simp at hc
          | cons line folds =>
            obtain rfl : '\r' = c := by simpa using hc
            exact absurd hfold (by decide)
        | cons d first =>
          obtain rfl : d = c := by simpa using hc
          simpa [continues, isFold] using hfold
      exact ⟨front, first :: folds, by simp, fun hin => ha (List.mem_append_left _ hin),
        List.forall_mem_cons.mpr ⟨⟨hfirst, hcont⟩, hfolds⟩⟩
    · exact ⟨value, [], by simp, hmem, List.forall_mem_nil _⟩

/-! ## The lines of fields -/

/-- Lines that continue no field are passed over. -/
theorem gather_none_append {folds : List (List Char)}
    (hfolds : ∀ line ∈ folds, continues line = true) (rest : List (List Char)) :
    gather none (folds ++ rest) = gather none rest := by
  induction folds with
  | nil => rfl
  | cons line folds ih =>
    obtain ⟨hline, hfolds⟩ := List.forall_mem_cons.mp hfolds
    rw [List.cons_append, gather, if_pos hline]
    exact ih hfolds

/-- **The lines that fields are written on**, each with its line end: they are read as these fields,
and the first of them continues no field before. -/
structure IsWrittenOn (fields : List Field) (ls : List (List Char)) : Prop where
  text : fields.flatMap fieldChars = lineText ls
  read : gather none ls = fields
  begins : continuations ls = []
  no_lf : ∀ line ∈ ls, '\n' ∉ line
  ne_nil : ∀ line ∈ ls, line ≠ []

theorem isWrittenOn_nil : IsWrittenOn [] [] :=
  ⟨rfl, rfl, rfl, List.forall_mem_nil _, List.forall_mem_nil _⟩

/-- **The line that a field begins on, and those that continue it.** -/
theorem Field.WellRead.exists_lines {f : Field} (hf : f.WellRead) :
    ∃ (first : List Char) (folds : List (List Char)),
      fieldChars f = lineText (fieldLine f.name.toList first :: folds) ∧
      (OpenField.continued ⟨f.name.toList, first⟩ folds).close = f ∧ '\n' ∉ first ∧
      ∀ line ∈ folds, '\n' ∉ line ∧ continues line = true := by
  obtain ⟨first, folds, hvalue, hfirst, hfolds⟩ := hf.folded.exists_lines
  refine ⟨first, folds, ?_, ?_, hfirst, hfolds⟩
  · rw [lineText_cons, ← folds_append_lineEnd, fieldChars, hvalue, fieldLine]
    simp
  · rw [OpenField.continued, OpenField.close, ← hvalue, String.ofList_toList, String.ofList_toList]

/-- The line that a field begins on continues no other field. -/
theorem Field.WellRead.continues_fieldLine {f : Field} (hf : f.WellRead) (first : List Char) :
    continues (fieldLine f.name.toList first) = false := by
  rw [fieldLine]
  cases hname : f.name.toList with
  | nil => rfl
  | cons c cs =>
    have hblank : isBlank c = false := hf.trimmed.head c (by rw [hname]; rfl)
    have hspace : c ≠ ' ' := ne_of_isBlank hblank (by rfl)
    have htab : c ≠ '\t' := ne_of_isBlank hblank (by rfl)
    simp [continues, hspace, htab]

/-- **One field more** stands on lines of its own above the others. -/
theorem IsWrittenOn.exists_cons {fields : List Field} {ls : List (List Char)}
    (h : IsWrittenOn fields ls) {f : Field} (hf : f.WellRead) :
    ∃ own, IsWrittenOn (f :: fields) (own ++ ls) := by
  obtain ⟨first, folds, htext, hclose, hfirst, hfolds⟩ := hf.exists_lines
  have hcont : ∀ line ∈ folds, continues line = true := fun line hline => (hfolds line hline).2
  have hplain : ':' ∉ f.name.toList := fun hmem => (hf.plain ':' hmem).1 rfl
  have hbegins := hf.continues_fieldLine first
  let p : FieldAt (fieldLine f.name.toList first :: (folds ++ ls)) :=
    ⟨[], f.name.toList, ' ' :: first, folds ++ ls, rfl, hplain, hbegins⟩
  have hread : p.read = f := by
    show (OpenField.continued ⟨trim f.name.toList, first⟩ (continuations (folds ++ ls))).close = f
    rw [continuations_append hcont, h.begins, List.append_nil, trim_eq_self hf.trimmed, hclose]
  refine ⟨fieldLine f.name.toList first :: folds, ?_, ?_, ?_, ?_, ?_⟩
  · rw [List.flatMap_cons, h.text, htext, lineText, lineText, lineText, List.flatMap_append]
  · rw [List.cons_append, p.gather_eq, hread]
    show f :: gather none (folds ++ ls) = f :: fields
    rw [gather_none_append hcont, h.read]
  · have hline : OpenField.ofLine? (fieldLine f.name.toList first) = some _ := p.ofLine?_eq
    rw [List.cons_append, continuations, if_neg (by simp [hbegins]), hline]
    rfl
  · have hname : '\n' ∉ f.name.toList := fun hmem => (hf.plain _ hmem).2 rfl
    have hown : '\n' ∉ fieldLine f.name.toList first := by
      simp [fieldLine, hname, hfirst]
    exact List.forall_mem_cons.mpr ⟨hown, List.forall_mem_append.mpr
      ⟨fun line hline => (hfolds line hline).1, h.no_lf⟩⟩
  · have hown : fieldLine f.name.toList first ≠ [] := by
      simp [fieldLine]
    refine List.forall_mem_cons.mpr ⟨hown, List.forall_mem_append.mpr ⟨?_, h.ne_nil⟩⟩
    rintro line hline rfl
    exact absurd (hcont [] hline) (by decide)

/-- **Fields that are such as reading gives** stand on lines of their own. -/
theorem exists_isWrittenOn {fields : List Field} (h : ∀ f ∈ fields, f.WellRead) :
    ∃ ls, IsWrittenOn fields ls := by
  induction fields with
  | nil => exact ⟨[], isWrittenOn_nil⟩
  | cons f fields ih =>
    obtain ⟨hf, hfields⟩ := List.forall_mem_cons.mp h
    obtain ⟨ls, hls⟩ := ih hfields
    obtain ⟨own, hown⟩ := hls.exists_cons hf
    exact ⟨own ++ ls, hown⟩

/-! ## The body -/

/-- The body stands behind the empty line that follows the lines of the header block. -/
theorem splitBlankFrom_lineText {ls : List (List Char)} (hls : ls ≠ [])
    (hlf : ∀ line ∈ ls, '\n' ∉ line) (hne : ∀ line ∈ ls, line ≠ []) (body : List UInt8) :
    (splitBlankFrom (Utf8.encode (lineText ls) ++ cr :: lf :: body)).2 = body := by
  induction ls with
  | nil => exact absurd rfl hls
  | cons line ls ih =>
    obtain ⟨hline, hlf⟩ := List.forall_mem_cons.mp hlf
    have hbytes : Utf8.encode (lineText (line :: ls)) ++ cr :: lf :: body =
        Utf8.encode (line ++ ['\r']) ++ lf :: (Utf8.encode (lineText ls) ++ cr :: lf :: body) := by
      rw [lineText_cons, Utf8.encode_append, Utf8.encode_append, List.append_assoc,
        List.append_assoc]
      rfl
    have hfirst : lf ∉ Utf8.encode (line ++ ['\r']) := lf_not_mem_encode (by simp [hline])
    rw [hbytes]
    by_cases hmore : ls = []
    · subst hmore
      have hblank : dropLineEnd? (Utf8.encode (lineText []) ++ cr :: lf :: body) = some body := rfl
      rw [splitBlankFrom_blank hfirst hblank]
    · have hne := (List.forall_mem_cons.mp hne).2
      have hnone : dropLineEnd? (Utf8.encode (lineText ls) ++ cr :: lf :: body) = none :=
        Sent.dropLineEnd?_bytes ⟨ls, some body, hlf, hne⟩ (.inl hmore)
      rw [splitBlankFrom_append hfirst hnone]
      exact ih hmore hlf hne

/-- **The body of a message that was sent** is what it was sent with. -/
theorem splitBlank_bytes {m : Sent} {body : List UInt8} (h : m.body = some body) :
    (splitBlank m.bytes).2 = body := by
  obtain ⟨ls, _, hlf, hne⟩ := m
  obtain rfl := h
  rw [splitBlank]
  by_cases hls : ls = []
  · subst hls
    rfl
  · rw [Sent.dropLineEnd?_bytes _ (.inl hls)]
    exact splitBlankFrom_lineText hls hlf hne body

/-! ## Messages -/

/-- **A message is read as it was written** just if its fields are such as reading gives: each of
their names has no blank at its ends, no colon and no line feed, and each line feed of a value
follows a carriage return and stands before a space or a tab. The body may be any bytes. -/
theorem ofBytes_toBytes_iff (m : Message) :
    ofBytes (toBytes m) = m ↔ ∀ f ∈ m.headers.fields, f.WellRead := by
  constructor
  · intro h
    rw [← h]
    exact ofBytes_wellRead (toBytes m)
  · intro h
    obtain ⟨ls, hls⟩ := exists_isWrittenOn h
    let sent : Sent := ⟨ls, some m.body, hls.no_lf, hls.ne_nil⟩
    have hbytes : toBytes m = sent.bytes := by
      rw [toBytes, hls.text, Utf8.encode_append, List.append_assoc]
      rfl
    have hfields : (ofBytes sent.bytes).headers.fields = m.headers.fields := by
      rw [sent.fields_bytes, hls.read]
    have hbody : (ofBytes sent.bytes).body = m.body := splitBlank_bytes rfl
    calc ofBytes (toBytes m)
        = ⟨⟨(ofBytes sent.bytes).headers.fields⟩, (ofBytes sent.bytes).body⟩ := by rw [hbytes]
      _ = m := by rw [hfields, hbody]

end MailScreen.Mail
