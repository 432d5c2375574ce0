import MailScreen.Mail.Message
import MailScreen.Proofs.Text.Split
import MailScreen.Proofs.Text.Utf8

/-!
# What reading a message gives

* `ofBytes_wellRead`: a field that was read has a name without a colon, without a line feed and
  without blanks at its ends; a line feed in its value follows a carriage return and stands before
  a space or a tab (`Folded`).
* `gather_some_eq`: a field takes the lines that continue it, up to the next field.
* `ofBytes_fieldChars_append`: a written field in front of a message is read as one field more, if
  the message does not begin with its body and no line before its first field continues a field
  (`NoStrayFold`). A line without a colon does not end the field before it, so such a line followed
  by a continuation would be read into the field in front.
-/

namespace MailScreen.Mail

open MailScreen.Text

/-- Whether a character may begin a line that continues a field. -/
def isFold (c : Char) : Bool := c == ' ' || c == '\t'

/-- A value on one line or more: every line feed follows a carriage return and stands before a
space or a tab. -/
def Folded (value : List Char) : Prop :=
  ∀ a b, value = a ++ '\n' :: b → a.getLast? = some '\r' ∧ ∃ c, b.head? = some c ∧ isFold c = true

/-- What is known of a field that was read. -/
structure Field.WellRead (f : Field) : Prop where
  trimmed : Trimmed f.name.toList
  plain : ∀ c ∈ f.name.toList, c ≠ ':' ∧ c ≠ '\n'
  folded : Folded f.value.toList

/-! ## Folded values -/

theorem folded_of_no_lf {value : List Char} (h : '\n' ∉ value) : Folded value := by
  rintro a b rfl
  exact absurd (List.mem_append_right a List.mem_cons_self) h

/-- Splitting an appended text at an element: the element stands in one of the two parts. -/
theorem append_eq_append_cons {α : Type} {x y a b : List α} {c : α} (h : x ++ y = a ++ c :: b) :
    (∃ r, x = a ++ c :: r ∧ b = r ++ y) ∨ ∃ l, a = x ++ l ∧ y = l ++ c :: b := by
  rcases List.append_eq_append_iff.mp h with ⟨l, rfl, hy⟩ | ⟨r, rfl, hr⟩
  · exact Or.inr ⟨l, rfl, hy⟩
  · cases r with
    | nil => exact Or.inr ⟨[], by simp, by simpa using hr.symm⟩
    | cons d r =>
      obtain ⟨rfl, rfl⟩ := List.cons.inj hr
      exact Or.inl ⟨r, rfl, rfl⟩

/-- A continuation line keeps a value folded. -/
theorem Folded.append_line {value line : List Char} (h : Folded value) (hline : '\n' ∉ line)
    (hcont : Message.continues line = true) : Folded (value ++ '\r' :: '\n' :: line) := by
  intro a b hab
  rcases append_eq_append_cons hab with ⟨r, rfl, rfl⟩ | ⟨l, rfl, hl⟩
  · obtain ⟨hcr, c, hc, hfold⟩ := h a r rfl
    refine ⟨hcr, c, ?_, hfold⟩
    cases r with
    | nil => simp at hc
    | cons d r => exact hc
  · rcases l with _ | ⟨d, _ | ⟨e, l⟩⟩
    · simp at hl
    · obtain ⟨rfl, rfl⟩ : '\r' = d ∧ line = b := by simpa using hl
      refine ⟨by simp, ?_⟩
      cases line with
      | nil => simp [Message.continues] at hcont
      | cons c cs =>
        refine ⟨c, rfl, ?_⟩
        simpa [Message.continues, isFold] using hcont
    · obtain ⟨rfl, rfl, rfl⟩ : '\r' = d ∧ '\n' = e ∧ line = l ++ '\n' :: b := by simpa using hl
      exact absurd (List.mem_append_right l List.mem_cons_self) hline

/-! ## Fields that were read -/

namespace Message

theorem no_lf_of_mem_lines {block line : List Char} (h : line ∈ lines block) : '\n' ∉ line :=
  not_mem_of_mem_map_dropFinal h

/-- What is known of a field that is being gathered. -/
structure OpenField.WellRead (f : OpenField) : Prop where
  trimmed : Trimmed f.name
  plain : ∀ c ∈ f.name, c ≠ ':' ∧ c ≠ '\n'
  folded : Folded f.value

theorem OpenField.WellRead.close {f : OpenField} (h : f.WellRead) : f.close.WellRead where
  trimmed := by simpa [OpenField.close] using h.trimmed
  plain := by simpa [OpenField.close] using h.plain
  folded := by simpa [OpenField.close] using h.folded

theorem dropLead_subset (lead line : List Char) : dropLead lead line ⊆ line := by
  suffices h : ∀ (lead line rest : List Char), dropLead? lead line = some rest → rest ⊆ line by
    unfold dropLead
    cases hd : dropLead? lead line with
    | none => exact List.Subset.refl line
    | some rest => exact h lead line rest hd
  intro lead line
  induction lead generalizing line with
  | nil => intro rest h; simp only [dropLead?, Option.some.injEq] at h; rw [h]; exact fun _ => id
  | cons l lead ih =>
    intro rest h
    cases line with
    | nil => simp [dropLead?] at h
    | cons c line =>
      simp only [dropLead?] at h
      split at h
      · exact List.subset_cons_of_subset c (ih line rest h)
      · simp at h

theorem wellRead_ofLine? {line : List Char} {f : OpenField} (hline : '\n' ∉ line)
    (h : OpenField.ofLine? line = some f) : f.WellRead := by
  obtain ⟨⟨name, value⟩, hcut, rfl⟩ := Option.map_eq_some_iff.mp h
  obtain ⟨x, -, hname, rfl⟩ := eq_of_cutFirst hcut
  rw [List.mem_append, List.mem_cons, not_or, not_or] at hline
  refine ⟨trimmed_trim name, fun c hc => ?_, ?_⟩
  · have hmem := mem_of_mem_trim hc
    exact ⟨by simpa using hname c hmem, fun e => hline.1 (e ▸ hmem)⟩
  · exact folded_of_no_lf fun hmem => hline.2.2 (dropLead_subset _ _ hmem)

/-- **Every field that is gathered is well read**, if the field before the lines is. -/
theorem wellRead_of_mem_gather {current : Option OpenField} {ls : List (List Char)}
    (hcur : ∀ f, current = some f → f.WellRead) (hls : ∀ line ∈ ls, '\n' ∉ line) :
    ∀ f ∈ gather current ls, f.WellRead := by
  induction ls generalizing current with
  | nil =>
    intro f hf
    cases current with
    | none => simp [gather] at hf
    | some g =>
      obtain rfl : f = g.close := by simpa [gather] using hf
      exact (hcur g rfl).close
  | cons line ls ih =>
    intro f hf
    have hline := hls line List.mem_cons_self
    have hrest : ∀ l ∈ ls, '\n' ∉ l := fun l hl => hls l (List.mem_cons_of_mem line hl)
    rw [gather] at hf
    split at hf
    · rename_i hcont
      refine ih (fun g hg => ?_) hrest f hf
      obtain ⟨g', hg', rfl⟩ := Option.map_eq_some_iff.mp hg
      have hg'' := hcur g' hg'
      exact ⟨hg''.trimmed, hg''.plain, hg''.folded.append_line hline hcont⟩
    · split at hf
      · exact ih hcur hrest f hf
      · rename_i g hg
        rcases List.mem_append.mp hf with hf | hf
        · obtain ⟨g', hg', rfl⟩ : ∃ g', current = some g' ∧ g'.close = f := by simpa using hf
          exact (hcur g' hg').close
        · refine ih (fun g' hg' => ?_) hrest f hf
          obtain rfl := Option.some.inj hg'
          exact wellRead_ofLine? hline hg

/-- The lines of the header block of a message. -/
def headerLines (raw : List UInt8) : List (List Char) :=
  lines (Utf8.decodeLossy (splitBlank raw).1)

theorem ofBytes_eq (raw : List UInt8) :
    ofBytes raw = ⟨⟨gather none (headerLines raw)⟩, (splitBlank raw).2⟩ := rfl

/-- **The fields of a message are well read.** -/
theorem ofBytes_wellRead (raw : List UInt8) : ∀ f ∈ (ofBytes raw).headers.fields, f.WellRead :=
  wellRead_of_mem_gather (fun _ h => nomatch h) fun _ h => no_lf_of_mem_lines h

/-! ## A field in front of a message -/

/-- No line before the first field continues a field. -/
def NoStrayFold : List (List Char) → Prop
  | [] => True
  | line :: ls => continues line = false ∧ (OpenField.ofLine? line = none → NoStrayFold ls)

/-- The lines that continue the field before them, up to the next field; a line that is no field and
continues none is passed over. -/
def continuations : List (List Char) → List (List Char)
  | [] => []
  | line :: ls =>
    if continues line then line :: continuations ls
    else if (OpenField.ofLine? line).isSome then []
    else continuations ls

/-- All of the lines that stand first and continue a field do so. -/
theorem continuations_append {folds : List (List Char)}
    (hfolds : ∀ line ∈ folds, continues line = true) (rest : List (List Char)) :
    continuations (folds ++ rest) = folds ++ continuations rest := by
  induction folds with
  | nil => rfl
  | cons line folds ih =>
    obtain ⟨hline, hfolds⟩ := List.forall_mem_cons.mp hfolds
    rw [List.cons_append, continuations, if_pos hline, ih hfolds, List.cons_append]

/-- The field with further lines of its value. -/
def OpenField.continued (f : OpenField) (folds : List (List Char)) : OpenField :=
  { f with value := f.value ++ folds.flatMap ('\r' :: '\n' :: ·) }

/-- **A field takes the lines that continue it**, and all others are read as without it. -/
theorem gather_some_eq (f : OpenField) (ls : List (List Char)) :
    gather (some f) ls = (f.continued (continuations ls)).close :: gather none ls := by
  induction ls generalizing f with
  | nil => simp [gather, continuations, OpenField.continued]
  | cons line ls ih =>
    rw [gather, gather, continuations]
    by_cases hcont : continues line = true
    · rw [if_pos hcont, if_pos hcont, if_pos hcont, Option.map_some, Option.map_none, ih]
      simp [OpenField.continued]
    · rw [if_neg hcont, if_neg hcont, if_neg hcont]
      cases OpenField.ofLine? line with
      | none => exact ih f
      | some g => simp [OpenField.continued]

theorem NoStrayFold.continuations_eq_nil {ls : List (List Char)} (h : NoStrayFold ls) :
    continuations ls = [] := by
  induction ls with
  | nil => rfl
  | cons line ls ih =>
    rw [continuations, if_neg (by simp [h.1])]
    cases hline : OpenField.ofLine? line with
    | none => exact ih (h.2 hline)
    | some g => rfl

/-- Without stray continuations the field in front ends where it stands. -/
theorem gather_some {ls : List (List Char)} (h : NoStrayFold ls) (f : OpenField) :
    gather (some f) ls = f.close :: gather none ls := by
  rw [gather_some_eq, h.continuations_eq_nil]
  simp [OpenField.continued]

/-- A name that a field can have. -/
structure IsName (name : List Char) : Prop where
  ne_nil : name ≠ []
  trimmed : Trimmed name
  plain : ∀ c ∈ name, c ≠ ':' ∧ c ≠ '\n'

/-- The line of a field with a value on one line. -/
def fieldLine (name value : List Char) : List Char :=
  name ++ ':' :: ' ' :: value

variable {name value : List Char}

theorem no_lf_fieldLine (hname : IsName name) (hvalue : '\n' ∉ value) :
    '\n' ∉ fieldLine name value := by
  simp only [fieldLine, List.mem_append, List.mem_cons, not_or]
  exact ⟨fun h => (hname.plain _ h).2 rfl, by decide, by decide, hvalue⟩

/-- The line of a field is read as that field. -/
theorem gather_fieldLine (hname : IsName name) (ls : List (List Char)) :
    gather none (fieldLine name value :: ls) = gather (some ⟨name, value⟩) ls := by
  obtain ⟨c, cs, hc⟩ := List.exists_cons_of_ne_nil hname.ne_nil
  have hblank : isBlank c = false := hname.trimmed.head c (by rw [hc]; rfl)
  have hcont : continues (fieldLine name value) = false := by
    rw [fieldLine, hc, List.cons_append, continues, List.head?_cons, Bool.or_eq_false_iff]
    constructor
    · rw [beq_eq_false_iff_ne]
      exact fun e => ne_of_isBlank hblank (by rfl) (Option.some.inj e)
    · rw [beq_eq_false_iff_ne]
      exact fun e => ne_of_isBlank hblank (by rfl) (Option.some.inj e)
  have hcut : cutFirst (· == ':') (fieldLine name value) = some (name, ' ' :: value) :=
    cutFirst_append_cons rfl (fun d hd => by simpa using (hname.plain d hd).1) _
  have hread : OpenField.ofLine? (fieldLine name value) = some ⟨name, value⟩ := by
    rw [OpenField.ofLine?, hcut, Option.map_some]
    simp only [trim_eq_self hname.trimmed]
    rfl
  rw [gather, if_neg (by simp [hcont]), hread]
  rfl

/-- The first byte of a text is a line feed or a carriage return only if its first character is. -/
theorem encode_cons (c : Char) (cs : List Char) :
    ∃ b bytes, Utf8.encode (c :: cs) = b :: bytes ∧ (b = lf → c = '\n') ∧ (b = cr → c = '\r') := by
  obtain ⟨b, bs, hb, hnext⟩ := Utf8.next_encodeChar c (Utf8.encode cs)
  refine ⟨b, bs ++ Utf8.encode cs, ?_, ?_, ?_⟩
  · rw [Utf8.encode, List.flatMap_cons, hb, ← Utf8.encode, List.cons_append]
  · rintro rfl
    exact (Option.some.inj (congrArg Prod.fst hnext)).symm
  · rintro rfl
    exact (Option.some.inj (congrArg Prod.fst hnext)).symm

/-- Text without a line feed has no byte of one. -/
theorem lf_not_mem_encode {cs : List Char} (h : '\n' ∉ cs) : lf ∉ Utf8.encode cs := by
  intro hmem
  obtain ⟨c, hc, hb⟩ := List.mem_flatMap.mp hmem
  have hne : c ≠ '\n' := fun e => h (e ▸ hc)
  have hval : c.val.toNat ≠ 10 := fun e => hne (Char.toNat_inj.mp e)
  have hbig : ∀ n, 11 ≤ n → n < 256 → lf ≠ UInt8.ofNat n := by
    intro n hn hlt e
    have := congrArg UInt8.toNat e
    rw [UInt8.toNat_ofNat_of_lt' hlt] at this
    simp [lf] at this
    omega
  unfold String.utf8EncodeChar at hb
  simp only at hb
  split at hb
  · rw [List.mem_singleton] at hb
    have := congrArg UInt8.toNat hb
    rw [UInt8.toNat_ofNat_of_lt' (show c.val.toNat < 256 by omega)] at this
    exact hval this.symm
  split at hb
  · simp only [List.mem_cons, List.not_mem_nil, or_false] at hb
    rcases hb with hb | hb <;> exact hbig _ (by omega) (by omega) hb
  split at hb
  · simp only [List.mem_cons, List.not_mem_nil, or_false] at hb
    rcases hb with hb | hb | hb <;> exact hbig _ (by omega) (by omega) hb
  · simp only [List.mem_cons, List.not_mem_nil, or_false] at hb
    rcases hb with hb | hb | hb | hb <;> exact hbig _ (by omega) (by omega) hb

/-- A first line without its line feed, in front of a block that does not begin with a line end. -/
theorem splitBlankFrom_append {first raw : List UInt8} (hfirst : lf ∉ first)
    (hraw : dropLineEnd? raw = none) :
    splitBlankFrom (first ++ lf :: raw) =
      (first ++ lf :: (splitBlankFrom raw).1, (splitBlankFrom raw).2) := by
  induction first with
  | nil => rw [List.nil_append, splitBlankFrom, if_pos rfl, hraw]; rfl
  | cons b first ih =>
    rw [List.mem_cons, not_or] at hfirst
    rw [List.cons_append, splitBlankFrom, if_neg (Ne.symm hfirst.1)]
    simp only [ih hfirst.2, List.cons_append]

/-- A first line without its line feed, in front of the empty line. -/
theorem splitBlankFrom_blank {first raw body : List UInt8} (hfirst : lf ∉ first)
    (hraw : dropLineEnd? raw = some body) :
    splitBlankFrom (first ++ lf :: raw) = (first, body) := by
  induction first with
  | nil => rw [List.nil_append, splitBlankFrom, if_pos rfl, hraw]
  | cons b first ih =>
    rw [List.mem_cons, not_or] at hfirst
    rw [List.cons_append, splitBlankFrom, if_neg (Ne.symm hfirst.1)]
    simp only [ih hfirst.2]

theorem dropLineEnd?_cons {b : UInt8} (hlf : b ≠ lf) (hcr : b ≠ cr) (bytes : List UInt8) :
    dropLineEnd? (b :: bytes) = none := by
  simp [dropLineEnd?, dropLead?, Ne.symm hlf, Ne.symm hcr]

/-- A message that begins with its body has no fields. -/
theorem dropLineEnd?_eq_none_of_fields {raw : List UInt8}
    (h : (ofBytes raw).headers.fields ≠ []) : dropLineEnd? raw = none := by
  cases hd : dropLineEnd? raw with
  | none => rfl
  | some body =>
    refine absurd ?_ h
    rw [ofBytes_eq, headerLines, splitBlank, hd]
    simp [Utf8.decodeLossy, lines, pieces, dropFinal, gather, continues, OpenField.ofLine?,
      cutFirst]

/-- A line of a header block without its line feed. -/
theorem lines_line {line : List Char} (hline : '\n' ∉ line) : lines (line ++ ['\r']) = [line] := by
  have hplain : ∀ c ∈ line ++ ['\r'], (c == '\n') = false := by
    intro c hc
    rw [beq_eq_false_iff_ne]
    rintro rfl
    simp only [List.mem_append, List.mem_singleton] at hc
    exact hc.elim hline (by decide)
  have hcut : dropFinal '\r' (line ++ ['\r']) = line := by simp [dropFinal]
  rw [lines, pieces_eq_singleton hplain, List.map_singleton, hcut]

/-- A line in front of a header block is its first line. -/
theorem lines_append_line {line : List Char} (hline : '\n' ∉ line) (text : List Char) :
    lines ((line ++ ['\r']) ++ '\n' :: text) = line :: lines text := by
  rw [lines, pieces_append_cons (by rfl), List.map_append, ← lines, lines_line hline]
  rfl

/-- The line of a field in front of a message belongs to its header block. -/
theorem splitBlank_append (hname : IsName name) (hvalue : '\n' ∉ value) {raw : List UInt8}
    (hraw : dropLineEnd? raw = none) :
    splitBlank (Utf8.encode (fieldLine name value ++ ['\r']) ++ lf :: raw) =
      (Utf8.encode (fieldLine name value ++ ['\r']) ++ lf :: (splitBlank raw).1,
        (splitBlank raw).2) := by
  have hfirst : lf ∉ Utf8.encode (fieldLine name value ++ ['\r']) :=
    lf_not_mem_encode (by simpa using no_lf_fieldLine hname hvalue)
  obtain ⟨c, cs, hc⟩ := List.exists_cons_of_ne_nil hname.ne_nil
  have hblank : isBlank c = false := hname.trimmed.head c (by rw [hc]; rfl)
  obtain ⟨b, bytes, hb, hlf, hcr⟩ := encode_cons c (cs ++ ':' :: ' ' :: value ++ ['\r'])
  have hb' : Utf8.encode (fieldLine name value ++ ['\r']) = b :: bytes := by
    rw [← hb]
    simp [fieldLine, hc]
  have hstart :
      dropLineEnd? (Utf8.encode (fieldLine name value ++ ['\r']) ++ lf :: raw) = none := by
    rw [hb', List.cons_append]
    apply dropLineEnd?_cons
    · exact fun e => ne_of_isBlank hblank (by rfl) (hlf e)
    · exact fun e => ne_of_isBlank hblank (by rfl) (hcr e)
  rw [splitBlank, hstart, splitBlank, hraw]
  exact splitBlankFrom_append hfirst hraw

/-- **A field in front of a message** is read as one field more, if the message has fields and no
line before the first of them continues a field. -/
theorem ofBytes_fieldChars_append (hname : IsName name) (hvalue : '\n' ∉ value)
    {raw : List UInt8} (hfields : (ofBytes raw).headers.fields ≠ [])
    (hstray : NoStrayFold (headerLines raw)) :
    ofBytes (Utf8.encode (fieldChars ⟨String.ofList name, String.ofList value⟩) ++ raw) =
      ⟨⟨⟨String.ofList name, String.ofList value⟩ :: (ofBytes raw).headers.fields⟩,
        (ofBytes raw).body⟩ := by
  have hraw := dropLineEnd?_eq_none_of_fields hfields
  have hchars : fieldChars ⟨String.ofList name, String.ofList value⟩ =
      (fieldLine name value ++ ['\r']) ++ ['\n'] := by
    simp [fieldChars, fieldLine]
  have hbytes : Utf8.encode (fieldChars ⟨String.ofList name, String.ofList value⟩) ++ raw =
      Utf8.encode (fieldLine name value ++ ['\r']) ++ lf :: raw := by
    rw [hchars, Utf8.encode_append, List.append_assoc]
    rfl
  have htext : Utf8.decodeLossy
      (Utf8.encode (fieldLine name value ++ ['\r']) ++ lf :: (splitBlank raw).1) =
      (fieldLine name value ++ ['\r']) ++ '\n' :: Utf8.decodeLossy (splitBlank raw).1 := by
    rw [Utf8.decodeLossy_encode_append]
    congr 1
    exact Utf8.decodeLossy_encode_append ['\n'] _
  rw [hbytes, ofBytes_eq, headerLines, splitBlank_append hname hvalue hraw, htext,
    lines_append_line (no_lf_fieldLine hname hvalue), gather_fieldLine hname, ← headerLines,
    gather_some hstray]
  rfl

end Message

end MailScreen.Mail
