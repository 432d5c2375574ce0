import MailScreen.Proofs.Dkim.Canonical

/-!
# The simple form of a field as it was sent

A message is taken apart line by line, and the simple form puts its fields together again. All of it
comes back but for what stands between a name and its value: of that nothing is kept, and the form
has one space.

* `FieldAt` is a field among lines; `gather_eq` says what it is read as, and `exists_fieldAt` that
  every field is read from one.
* `Sent` is a message as it is sent, line by line; `fields_bytes`: it is read by its lines.
* `headerBytes_simple`: what is signed of a field is its own lines, with one space behind the colon;
  these are the lines as they were sent just if the space was there.
-/

namespace MailScreen.Dkim

open MailScreen.Text MailScreen.Mail Message

/-! ## A field among lines -/

/-- **A field among lines**: its name up to a colon, and the first line of its value. The line does
not continue a field. -/
structure FieldAt (ls : List (List Char)) where
  above : List (List Char)
  name : List Char
  value : List Char
  below : List (List Char)
  lines_eq : ls = above ++ (name ++ ':' :: value) :: below
  plain : ':' ∉ name
  begins : continues (name ++ ':' :: value) = false

namespace FieldAt

variable {ls : List (List Char)} (p : FieldAt ls)

/-- The lines of the field as they were sent. -/
def sent : List (List Char) :=
  (p.name ++ ':' :: p.value) :: continuations p.below

/-- The same lines with the name trimmed and one space behind the colon. -/
def spaced : List (List Char) :=
  (trim p.name ++ ':' :: ' ' :: dropLead [' '] p.value) :: continuations p.below

/-- What the field is read as. -/
def read : Field :=
  ((⟨trim p.name, dropLead [' '] p.value⟩ : OpenField).continued (continuations p.below)).close

theorem ofLine?_eq : OpenField.ofLine? (p.name ++ ':' :: p.value) =
    some ⟨trim p.name, dropLead [' '] p.value⟩ := by
  rw [OpenField.ofLine?, cutFirst_append_cons (by rfl) (beq_false_of_not_mem p.plain)]
  rfl

/-- A line that begins a field ends the one before it. -/
theorem gather_append (current : Option OpenField) (above : List (List Char)) {line : List Char}
    {f : OpenField} (hline : OpenField.ofLine? line = some f) (hbegins : continues line = false)
    (below : List (List Char)) :
    gather current (above ++ line :: below) = gather current above ++ gather (some f) below := by
  induction above generalizing current with
  | nil => rw [List.nil_append, gather, gather, if_neg (by simp [hbegins]), hline]
  | cons first above ih =>
    rw [List.cons_append, gather, gather]
    by_cases hfirst : continues first = true
    · rw [if_pos hfirst, if_pos hfirst, ih]
    · rw [if_neg hfirst, if_neg hfirst]
      cases OpenField.ofLine? first with
      | none => exact ih current
      | some g => simp only [ih, List.append_assoc]

/-- **The field is read between the others.** -/
theorem gather_eq : gather none ls = gather none p.above ++ p.read :: gather none p.below := by
  have hsplit := gather_append none p.above p.ofLine?_eq p.begins p.below
  rw [← p.lines_eq, gather_some_eq] at hsplit
  exact hsplit

/-- The field among the lines with one line more above. -/
def under (line : List Char) : FieldAt (line :: ls) where
  above := line :: p.above
  name := p.name
  value := p.value
  below := p.below
  lines_eq := congrArg (line :: ·) p.lines_eq
  plain := p.plain
  begins := p.begins

/-- **Every field that is read is one among the lines.** -/
theorem exists_fieldAt {f : Field} (h : f ∈ gather none ls) : ∃ p : FieldAt ls, p.read = f := by
  induction ls with
  | nil => exact absurd h List.not_mem_nil
  | cons line ls ih =>
    have hbelow (hf : f ∈ gather none ls) : ∃ p : FieldAt (line :: ls), p.read = f := by
      obtain ⟨p, hp⟩ := ih hf
      exact ⟨p.under line, hp⟩
    rw [gather] at h
    by_cases hcont : continues line = true
    · rw [if_pos hcont] at h
      exact hbelow h
    · rw [if_neg hcont] at h
      cases hline : OpenField.ofLine? line with
      | none =>
        rw [hline] at h
        exact hbelow h
      | some g =>
        obtain ⟨⟨name, value⟩, hcut, hg⟩ := Option.map_eq_some_iff.mp hline
        obtain ⟨sign, hsign, hname, rfl⟩ := eq_of_cutFirst hcut
        obtain rfl : sign = ':' := eq_of_beq hsign
        have hplain : ':' ∉ name := fun hmem => by simpa using hname ':' hmem
        rw [hline] at h
        simp only [gather_some_eq] at h
        rcases List.mem_cons.mp h with rfl | h
        · rw [← hg]
          exact ⟨⟨[], name, value, ls, rfl, hplain, Bool.eq_false_iff.mpr hcont⟩, rfl⟩
        · exact hbelow h

/-- **The lines of the field stand together** unless there is a line that is no field before a
continuation. -/
theorem lines_eq_sent {folds rest : List (List Char)} (hbelow : p.below = folds ++ rest)
    (hfolds : ∀ line ∈ folds, continues line = true) (hrest : NoStrayFold rest) :
    ls = p.above ++ p.sent ++ rest := by
  have hown : continuations p.below = folds := by
    rw [hbelow, continuations_append hfolds, hrest.continuations_eq_nil, List.append_nil]
  have hlines := p.lines_eq
  rw [hbelow] at hlines
  rw [sent, hown, List.append_assoc]
  exact hlines

/-- The simple form of the field, with its line end, is its lines with one space. -/
theorem fieldText_read : fieldText .simple p.read.name.toList p.read.value.toList ++ ['\r', '\n'] =
    lineText p.spaced := by
  rw [spaced, lineText_cons, fieldText, read, OpenField.close, OpenField.continued]
  simp [folds_append_lineEnd]

/-- **The space is what makes the difference**: the lines come back as they were sent just if there
was no blank around the name, and a space behind the colon. -/
theorem lineText_spaced_iff :
    lineText p.spaced = lineText p.sent ↔ Trimmed p.name ∧ p.value.head? = some ' ' := by
  rw [spaced, sent, lineText_cons, lineText_cons, List.append_cancel_right_eq]
  constructor
  · intro h
    have htrim : ':' ∉ trim p.name := fun hmem => p.plain (mem_of_mem_trim hmem)
    have hcut := congrArg (cutFirst (· == ':')) h
    rw [cutFirst_append_cons (by rfl) (beq_false_of_not_mem htrim),
      cutFirst_append_cons (by rfl) (beq_false_of_not_mem p.plain), Option.some.injEq,
      Prod.mk.injEq] at hcut
    rw [← hcut.1, ← hcut.2]
    exact ⟨trimmed_trim _, rfl⟩
  · rintro ⟨hname, hvalue⟩
    obtain ⟨value, hv⟩ := List.head?_eq_some_iff.mp hvalue
    rw [trim_eq_self hname, hv]
    rfl

end FieldAt

/-! ## A message as it is sent -/

/-- **A message as it is sent**: the lines of its header block, and after an empty line perhaps a
body. -/
structure Sent where
  lines : List (List Char)
  body : Option (List UInt8)
  no_lf : ∀ line ∈ lines, '\n' ∉ line
  ne_nil : ∀ line ∈ lines, line ≠ []

namespace Sent

/-- What follows the header block. -/
def ending : Option (List UInt8) → List UInt8
  | none => []
  | some body => cr :: lf :: body

/-- The bytes of the message. -/
def bytes (m : Sent) : List UInt8 :=
  Utf8.encode (lineText m.lines) ++ ending m.body

/-- **Every text is the text of a message** if it consists of lines with line ends: the lines up to
the first empty one are its header block. -/
theorem exists_sent {ls : List (List Char)} (h : ∀ line ∈ ls, '\n' ∉ line) :
    ∃ m : Sent, m.bytes = Utf8.encode (lineText ls) ∧ m.lines = ls.takeWhile (· ≠ []) := by
  induction ls with
  | nil => exact ⟨⟨[], none, nofun, nofun⟩, rfl, rfl⟩
  | cons line ls ih =>
    by_cases hline : line = []
    · subst hline
      exact ⟨⟨[], some (Utf8.encode (lineText ls)), nofun, nofun⟩, rfl, rfl⟩
    · obtain ⟨m, hbytes, hlines⟩ := ih fun l hl => h l (List.mem_cons_of_mem line hl)
      refine ⟨⟨line :: m.lines, m.body, ?_, ?_⟩, ?_, ?_⟩
      · exact List.forall_mem_cons.mpr ⟨h line List.mem_cons_self, m.no_lf⟩
      · exact List.forall_mem_cons.mpr ⟨hline, m.ne_nil⟩
      · have hfirst (text : List Char) : Utf8.encode (line ++ '\r' :: '\n' :: text) =
            Utf8.encode (line ++ ['\r', '\n']) ++ Utf8.encode text := by
          rw [← Utf8.encode_append, List.append_assoc]
          rfl
        rw [lineText_cons, hfirst, ← hbytes, bytes, bytes, lineText_cons, hfirst, List.append_assoc]
      · rw [List.takeWhile_cons, if_pos (by simp [hline]), ← hlines]

/-! ## Reading a message that was sent -/

/-- A text does not begin with a line end if neither of its first characters is a line feed. -/
theorem dropLineEnd?_encode {c d : Char} (hc : c ≠ '\n') (hd : d ≠ '\n') (cs : List Char)
    (rest : List UInt8) : dropLineEnd? (Utf8.encode (c :: d :: cs) ++ rest) = none := by
  by_cases hcr : c = '\r'
  · obtain ⟨b, bytes, hb, hlf, -⟩ := encode_cons d cs
    have hbytes : Utf8.encode (c :: d :: cs) = cr :: b :: bytes := by
      rw [hcr, ← hb]
      rfl
    have hne : lf ≠ b := fun e => hd (hlf e.symm)
    have hfirst : lf ≠ cr := by decide
    rw [hbytes]
    simp [dropLineEnd?, dropLead?, hne, hfirst]
  · obtain ⟨b, bytes, hb, hlf, hcr'⟩ := encode_cons c (d :: cs)
    rw [hb, List.cons_append]
    exact dropLineEnd?_cons (fun e => hc (hlf e)) (fun e => hcr (hcr' e)) _

/-- Only a message that begins with its empty line begins with a line end. -/
theorem dropLineEnd?_bytes (m : Sent) (h : m.lines ≠ [] ∨ m.body = none) :
    dropLineEnd? m.bytes = none := by
  obtain ⟨lines, body, hlf, hne⟩ := m
  cases lines with
  | nil =>
    obtain rfl : body = none := h.resolve_left fun hnil => hnil rfl
    rfl
  | cons line ls =>
    have hline := hlf line List.mem_cons_self
    obtain ⟨c, cs, rfl⟩ := List.exists_cons_of_ne_nil (hne line List.mem_cons_self)
    rw [List.mem_cons, not_or] at hline
    rw [bytes, lineText_cons]
    cases cs with
    | nil => exact dropLineEnd?_encode (Ne.symm hline.1) (by decide) _ _
    | cons d cs =>
      exact dropLineEnd?_encode (Ne.symm hline.1) (fun e => hline.2 (by simp [e])) _ _

/-- A header block without a line is read as one empty line. -/
theorem lines_decodeLossy_nil : Message.lines (Utf8.decodeLossy []) = [[]] := by
  simp [Utf8.decodeLossy, Message.lines, pieces, dropFinal]

/-- The lines of a header block that is not empty, or is the whole message. Without a body it ends
in a line feed, so that an empty line more is read. -/
theorem lines_splitBlankFrom {ls : List (List Char)} {body : Option (List UInt8)}
    (hlf : ∀ line ∈ ls, '\n' ∉ line) (hne : ∀ line ∈ ls, line ≠ []) (h : ls ≠ [] ∨ body = none) :
    let block := (splitBlankFrom (Utf8.encode (lineText ls) ++ ending body)).1
    Message.lines (Utf8.decodeLossy block) = ls ∨
      Message.lines (Utf8.decodeLossy block) = ls ++ [[]] := by
  intro block
  induction ls with
  | nil =>
    obtain rfl : body = none := h.resolve_left (fun hnil => hnil rfl)
    exact Or.inr lines_decodeLossy_nil
  | cons line ls ih =>
    rw [List.forall_mem_cons] at hlf hne
    have hbytes : Utf8.encode (lineText (line :: ls)) ++ ending body =
        Utf8.encode (line ++ ['\r']) ++ lf :: (Utf8.encode (lineText ls) ++ ending body) := by
      rw [lineText_cons, Utf8.encode_append, Utf8.encode_append, List.append_assoc,
        List.append_assoc]
      rfl
    have hfirst : lf ∉ Utf8.encode (line ++ ['\r']) := lf_not_mem_encode (by simp [hlf.1])
    by_cases hmore : ls ≠ [] ∨ body = none
    · have hnone : dropLineEnd? (Utf8.encode (lineText ls) ++ ending body) = none :=
        dropLineEnd?_bytes ⟨ls, body, hlf.2, hne.2⟩ hmore
      have hblock : Message.lines (Utf8.decodeLossy block) = line :: Message.lines
          (Utf8.decodeLossy (splitBlankFrom (Utf8.encode (lineText ls) ++ ending body)).1) := by
        show Message.lines (Utf8.decodeLossy (splitBlankFrom _).1) = _
        rw [hbytes, splitBlankFrom_append hfirst hnone, Utf8.decodeLossy_encode_append,
          ← lines_append_line hlf.1]
        exact congrArg (fun text => Message.lines (_ ++ text))
          (Utf8.decodeLossy_encode_append ['\n'] _)
      rw [hblock]
      exact (ih hlf.2 hne.2 hmore).imp (congrArg (line :: ·)) (congrArg (line :: ·))
    · rw [not_or, not_not] at hmore
      obtain ⟨rfl, hbody⟩ := hmore
      obtain ⟨bytes, rfl⟩ := Option.ne_none_iff_exists'.mp hbody
      have hblank : dropLineEnd? (Utf8.encode (lineText []) ++ ending (some bytes)) =
          some bytes := rfl
      have hblock : block = Utf8.encode (line ++ ['\r']) := by
        show (splitBlankFrom _).1 = _
        rw [hbytes, splitBlankFrom_blank hfirst hblank]
      rw [hblock, Utf8.decodeLossy_encode, lines_line hlf.1]
      exact Or.inl rfl

theorem headerLines_bytes (m : Sent) :
    headerLines m.bytes = m.lines ∨ headerLines m.bytes = m.lines ++ [[]] := by
  rw [headerLines, splitBlank]
  by_cases h : m.lines ≠ [] ∨ m.body = none
  · rw [dropLineEnd?_bytes m h]
    exact lines_splitBlankFrom m.no_lf m.ne_nil h
  · rw [not_or, not_not] at h
    obtain ⟨body, hbody⟩ := Option.ne_none_iff_exists'.mp h.2
    rw [bytes, h.1, hbody]
    exact Or.inr lines_decodeLossy_nil

/-- An empty line at the end is no field. -/
theorem gather_append_nil (current : Option OpenField) (ls : List (List Char)) :
    gather current (ls ++ [[]]) = gather current ls := by
  induction ls generalizing current with
  | nil => simp [gather, continues, OpenField.ofLine?, cutFirst]
  | cons line ls ih =>
    rw [List.cons_append, gather, gather]
    by_cases hcont : continues line = true
    · rw [if_pos hcont, if_pos hcont, ih]
    · rw [if_neg hcont, if_neg hcont]
      cases OpenField.ofLine? line with
      | none => exact ih current
      | some g => simp only [ih]

/-- **A message is read by its lines.** -/
theorem fields_bytes (m : Sent) : (ofBytes m.bytes).headers.fields = gather none m.lines := by
  rw [ofBytes_eq]
  rcases headerLines_bytes m with h | h
  · rw [h]
  · rw [h, gather_append_nil]

end Sent

/-! ## What is signed -/

variable {h : Headers} {f : Field} {n : String}

theorem signedFields_append (h : Headers) (earlier names names' : List String) :
    signedFields h earlier (names ++ names') =
      signedFields h earlier names ++ signedFields h (names.reverse ++ earlier) names' := by
  induction names generalizing earlier with
  | nil => rfl
  | cons n names ih =>
    rw [List.cons_append, signedFields, signedFields, ih, List.reverse_cons, List.append_assoc,
      List.append_assoc]
    rfl

/-- The field of a name that has some number of others of this name below it. -/
theorem instances_getElem? {above below : List Field} (hh : h.fields = above ++ f :: below)
    (hf : f.named n = true) : (instances h n)[below.countP (·.named n)]? = some f := by
  rw [instances, hh, List.filter_append, List.filter_cons, if_pos hf, List.reverse_append,
    List.reverse_cons, List.countP_eq_length_filter, ← List.length_reverse]
  simp

/-- A name takes its field behind the fields of the names before. -/
theorem signedTexts_append_cons (form : Form) {earlier : List String} (later : List String)
    (htaken : (instances h n)[earlier.count n]? = some f) :
    ∃ rest, signedTexts form h (earlier ++ n :: later) =
      signedTexts form h earlier ++ fieldText form f.name.toList f.value.toList :: rest := by
  rw [← List.count_reverse, ← List.append_nil earlier.reverse] at htaken
  rw [signedTexts, signedFields_append, signedFields, htaken, List.map_append]
  exact ⟨_, rfl⟩

/-- **What is signed of a field in the simple form.** A list of names selects a field of a message
if as many fields of this name stand below it as the list has the name before. Then its lines, with
one space behind the colon, stand behind the fields for the names before. These are its lines as
they were sent just if the name stands alone before the colon, and a space behind it. -/
theorem headerBytes_simple (m : Sent) (p : FieldAt m.lines) {n : String}
    (hn : p.read.named n = true) (earlier later : List String)
    (hcount : (gather none p.below).countP (·.named n) = earlier.count n) (signature : String) :
    let h := (ofBytes m.bytes).headers
    (∃ rest, headerBytes .simple h (earlier ++ n :: later) signature =
      Utf8.encode (lineText (signedTexts .simple h earlier)) ++ Utf8.encode (lineText p.spaced) ++
        rest) ∧
      (Utf8.encode (lineText p.spaced) = Utf8.encode (lineText p.sent) ↔
        Trimmed p.name ∧ p.value.head? = some ' ') := by
  intro h
  have htaken : (instances h n)[earlier.count n]? = some p.read := by
    rw [← hcount]
    exact instances_getElem? (m.fields_bytes.trans p.gather_eq) hn
  obtain ⟨texts, htexts⟩ := signedTexts_append_cons .simple later htaken
  have hlines : lineText (signedTexts .simple h (earlier ++ n :: later)) =
      lineText (signedTexts .simple h earlier) ++ (lineText p.spaced ++ lineText texts) := by
    rw [htexts, ← p.fieldText_read]
    simp [lineText]
  refine ⟨⟨Utf8.encode (lineText texts ++
    fieldText .simple "DKIM-Signature".toList signature.toList), ?_⟩, ?_⟩
  · rw [headerBytes, headerText_eq, hlines]
    simp only [Utf8.encode_append, List.append_assoc]
  · rw [← p.lineText_spaced_iff]
    exact ⟨Utf8.encode_injective, congrArg Utf8.encode⟩

theorem headerBytes_simple_folded :
    let m : Sent := ⟨["To:a@b.c".toList, "SUBJECT: Hello".toList, "\t world ".toList,
      "Subject:again".toList], some [72, 105], by decide, by decide⟩
    let p : FieldAt m.lines := ⟨["To:a@b.c".toList], "SUBJECT".toList, " Hello".toList,
      ["\t world ".toList, "Subject:again".toList], by rfl, by decide, by decide⟩
    let h := (ofBytes m.bytes).headers
    p.read.named "subject" = true ∧
      (gather none p.below).countP (·.named "subject") = ["subject", "to"].count "subject" ∧
      (∃ rest, headerBytes .simple h (["subject", "to"] ++ "subject" :: ["from"]) "v=1; b=" =
        Utf8.encode (lineText (signedTexts .simple h ["subject", "to"])) ++
          Utf8.encode (lineText p.spaced) ++ rest) ∧
      (Utf8.encode (lineText p.spaced) = Utf8.encode (lineText p.sent) ↔
        Trimmed p.name ∧ p.value.head? = some ' ') := by
  intro m p h
  have hn : p.read.named "subject" = true := by decide +kernel
  have hcount : (gather none p.below).countP (·.named "subject") =
      ["subject", "to"].count "subject" := by decide +kernel
  exact ⟨hn, hcount, headerBytes_simple m p hn ["subject", "to"] ["from"] hcount "v=1; b="⟩

/-- **A field without a space behind its colon** has one when it is signed. -/
theorem headerBytes_simple_unspaced :
    let raw := Utf8.encode "Subject:Hello\r\nTo: a@b.c\r\n\r\nHi\r\n".toList
    let bytes := headerBytes .simple (ofBytes raw).headers ["subject", "to"] "v=1; b="
    bytes = Utf8.encode "Subject: Hello\r\nTo: a@b.c\r\nDKIM-Signature: v=1; b=".toList ∧
      bytes ≠ Utf8.encode "Subject:Hello\r\nTo: a@b.c\r\nDKIM-Signature: v=1; b=".toList := by
  decide +kernel

end MailScreen.Dkim
