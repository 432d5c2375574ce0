import MailScreen.Dkim.Canonical
import MailScreen.Proofs.Dkim.Squeezed
import MailScreen.Proofs.Mail.Author
import MailScreen.Proofs.Mail.Message
import MailScreen.Proofs.Text.Ascii
import Mathlib.Data.List.Find

/-!
# What canonical text keeps

The canonical form of the signed fields forgets much, but neither where a field ends nor the author.

* `fieldDomain?_relaxedValue`: the relaxed form of a value has the same author as the value.
* `eq_of_lineText_eq`: a text of canonical fields has one decomposition, since a line feed within a
  field stands before a space or a tab, and no field begins with one (`IsLine`).
* `find?_signedFields`: the first signed `From` field is the last of the message.
* `author?_eq_textAuthor?`: so the author is read off the canonical text.
-/

namespace MailScreen.Dkim

open MailScreen.Text MailScreen.Mail

/-! ## Relaxed values -/

theorem isBlank_of_isSpaceChar {c : Char} (h : isSpaceChar c = true) : isBlank c = true := by
  rw [isSpaceChar, Bool.or_eq_true, beq_iff_eq, beq_iff_eq] at h
  rcases h with rfl | rfl <;> rfl

theorem isSpaceChar_of_not_isBlank {c : Char} (h : isBlank c = false) : isSpaceChar c = false := by
  rw [← Bool.not_eq_true]
  intro hspace
  rw [isBlank_of_isSpaceChar hspace] at h
  exact Bool.false_ne_true h.symm

/-- Taking runs of spaces and tabs together exchanges runs of blanks, unless one stands at the
end. -/
theorem collapse_squeezeFrom {cs : List Char} {pending : Bool}
    (hlast : ∀ c, cs.getLast? = some c → isSpaceChar c = false) (hcs : pending = true → cs ≠ []) :
    collapse (squeezeFrom isSpaceChar ' ' pending cs) =
      collapse (if pending then ' ' :: cs else cs) := by
  induction cs generalizing pending with
  | nil =>
    cases pending with
    | false => rfl
    | true => exact absurd rfl (hcs rfl)
  | cons c cs ih =>
    have hlast' : ∀ d, cs.getLast? = some d → isSpaceChar d = false := by
      intro d hd
      apply hlast
      rw [List.getLast?_cons, hd]
      rfl
    rw [squeezeFrom]
    cases hc : isSpaceChar c with
    | true =>
      have hne : cs ≠ [] := by
        rintro rfl
        rw [hlast c rfl] at hc
        exact Bool.false_ne_true hc
      rw [if_pos rfl, ih hlast' fun _ => hne, if_pos rfl]
      have hblank := isBlank_of_isSpaceChar hc
      cases pending with
      | false => exact collapse_blank_cons isBlank_space hblank cs
      | true =>
        rw [if_pos rfl, collapse_blank_blank isBlank_space hblank]
        exact collapse_blank_cons isBlank_space hblank cs
    | false =>
      have hrest : collapse (c :: squeezeFrom isSpaceChar ' ' false cs) = collapse (c :: cs) :=
        collapse_cons_congr c (ih hlast' fun h => absurd h Bool.false_ne_true)
      rw [if_neg Bool.false_ne_true]
      cases pending with
      | false => exact hrest
      | true => exact collapse_cons_congr ' ' hrest

/-- A line break within a folded value stands before a blank, so that it may go. -/
theorem collapse_dropBreaks {value : List Char}
    (h : ∀ a b, value = a ++ '\n' :: b → ∃ c, b.head? = some c ∧ isFold c = true) :
    collapse (dropBreaks value) = collapse value := by
  induction value using dropBreaks.induct with
  | case1 rest ih =>
    obtain ⟨c, hc, hfold⟩ := h ['\r'] rest rfl
    cases rest with
    | nil => exact absurd hc (by simp)
    | cons d rest =>
      obtain rfl : d = c := by simpa using hc
      have hd : isBlank d = true := isBlank_of_isSpaceChar hfold
      rw [dropBreaks, ih fun a b hab => h ('\r' :: '\n' :: a) b (by rw [hab]; rfl),
        collapse_blank_blank (by rfl) (by rfl), collapse_blank_blank (by rfl) hd]
  | case2 c rest hnot ih =>
    rw [dropBreaks]
    · exact collapse_cons_congr c (ih fun a b hab => h (c :: a) b (by rw [hab]; rfl))
    · exact hnot
  | case3 => rfl

theorem no_lf_dropBreaks {value : List Char}
    (h : ∀ a b, value = a ++ '\n' :: b → a.getLast? = some '\r') : '\n' ∉ dropBreaks value := by
  induction value using dropBreaks.induct with
  | case1 rest ih =>
    rw [dropBreaks]
    apply ih
    intro a b hab
    have hlast := h ('\r' :: '\n' :: a) b (by rw [hab]; rfl)
    cases a with
    | nil => exact absurd hlast (by decide)
    | cons d a => simpa [List.getLast?_cons] using hlast
  | case2 c rest hnot ih =>
    rw [dropBreaks, List.mem_cons, not_or]
    · refine ⟨?_, ih ?_⟩
      · rintro rfl
        exact absurd (h [] rest rfl) (by simp)
      · intro a b hab
        have hlast := h (c :: a) b (by rw [hab]; rfl)
        cases a with
        | nil =>
          obtain rfl : c = '\r' := by simpa using hlast
          exact absurd hab (hnot b rfl)
        | cons d a => simpa [List.getLast?_cons] using hlast
    · exact hnot
  | case3 => exact List.not_mem_nil

/-- The relaxed form of a folded value stands on one line. -/
theorem no_lf_relaxedValue {value : List Char} (h : Folded value) : '\n' ∉ relaxedValue value := by
  intro hmem
  rcases mem_of_mem_squeezeFrom hmem with hmem | ⟨hmem, -⟩
  · exact absurd hmem (by decide)
  · exact no_lf_dropBreaks (fun a b hab => (h a b hab).1) (mem_of_mem_trim hmem)

/-- **The relaxed form of a value has the author of the value.** -/
theorem fieldDomain?_relaxedValue {value : List Char} (h : Folded value) :
    fieldDomain? (relaxedValue value) = fieldDomain? value := by
  have hlast : ∀ c, (trim (dropBreaks value)).getLast? = some c → isSpaceChar c = false :=
    fun c hc => isSpaceChar_of_not_isBlank ((trimmed_trim (dropBreaks value)).last c hc)
  calc fieldDomain? (relaxedValue value)
      = fieldDomain? (collapse (relaxedValue value)) := (fieldDomain?_collapse _).symm
    _ = fieldDomain? (collapse (trim (dropBreaks value))) := by
        rw [relaxedValue, squeeze, collapse_squeezeFrom hlast fun h => absurd h Bool.false_ne_true]
        rfl
    _ = fieldDomain? (dropBreaks value) := by rw [fieldDomain?_collapse, fieldDomain?_trim]
    _ = fieldDomain? (collapse value) := by
        rw [← fieldDomain?_collapse, collapse_dropBreaks fun a b hab => (h a b hab).2]
    _ = fieldDomain? value := fieldDomain?_collapse value

/-! ## Where a field ends -/

/-- A field as it stands in canonical text: no space or tab begins it, and a line feed in it stands
before one. -/
structure IsLine (text : List Char) : Prop where
  begins : ∃ c, text.head? = some c ∧ isFold c = false
  folded : ∀ a b, text = a ++ '\n' :: b → ∃ c, b.head? = some c ∧ isFold c = true

/-- Behind a line feed within a field stands a space or a tab, also if the line end of the field is
added. -/
theorem IsLine.isFold_of_eq {text a b : List Char} (h : IsLine text)
    (hab : text ++ ['\r'] = a ++ '\n' :: b) : ∃ c, b.head? = some c ∧ isFold c = true := by
  rcases append_eq_append_cons hab with ⟨r, rfl, rfl⟩ | ⟨l, -, hl⟩
  · obtain ⟨c, hc, hfold⟩ := h.folded a r rfl
    refine ⟨c, ?_, hfold⟩
    rw [List.head?_append, hc]
    rfl
  · exfalso
    cases l with
    | nil => exact absurd hl (by simp)
    | cons d l => simp at hl

/-- **Two fields at the front of one text are the same**, if what follows them begins a field. -/
theorem eq_and_eq_of_append_eq {t u ts us : List Char} (ht : IsLine t) (hu : IsLine u)
    (hts : ∀ c, ts.head? = some c → isFold c = false)
    (hus : ∀ c, us.head? = some c → isFold c = false)
    (h : t ++ '\r' :: '\n' :: ts = u ++ '\r' :: '\n' :: us) : t = u ∧ ts = us := by
  have h' : (t ++ ['\r']) ++ '\n' :: ts = (u ++ ['\r']) ++ '\n' :: us := by
    rw [List.append_assoc, List.append_assoc]
    exact h
  rcases append_eq_append_cons h' with ⟨r, hr, rfl⟩ | ⟨l, hl, hrest⟩
  · obtain ⟨c, hc, hfold⟩ := ht.isFold_of_eq hr
    have hno := hus c (by rw [List.head?_append, hc]; rfl)
    rw [hfold] at hno
    exact absurd hno.symm Bool.false_ne_true
  · cases l with
    | nil =>
      rw [List.append_nil] at hl
      exact ⟨(List.append_cancel_right hl).symm, (List.cons.inj hrest).2⟩
    | cons d l =>
      obtain ⟨rfl, htail⟩ : '\n' = d ∧ ts = l ++ '\n' :: us := List.cons.inj hrest
      obtain ⟨c, hc, hfold⟩ := hu.isFold_of_eq hl
      have hno := hts c (by rw [htail, List.head?_append, hc]; rfl)
      rw [hfold] at hno
      exact absurd hno.symm Bool.false_ne_true

/-- Fields, each with its line end. -/
def lineText (texts : List (List Char)) : List Char :=
  texts.flatMap (· ++ ['\r', '\n'])

theorem lineText_cons (text : List Char) (texts : List (List Char)) :
    lineText (text :: texts) = text ++ '\r' :: '\n' :: lineText texts := by
  rw [lineText, List.flatMap_cons, List.append_assoc]
  rfl

/-- Lines with a line end before each, and one more at the end, have a line end behind each. -/
theorem folds_append_lineEnd (folds : List (List Char)) :
    folds.flatMap ('\r' :: '\n' :: ·) ++ ['\r', '\n'] = '\r' :: '\n' :: lineText folds := by
  induction folds with
  | nil => rfl
  | cons line folds ih =>
    rw [List.flatMap_cons, List.append_assoc, ih, lineText_cons]
    rfl

theorem isFold_head?_lineText {texts : List (List Char)} (h : ∀ t ∈ texts, IsLine t) :
    ∀ c, (lineText texts).head? = some c → isFold c = false := by
  intro c hc
  cases texts with
  | nil => exact absurd hc (by simp [lineText])
  | cons t texts =>
    obtain ⟨d, hd, hfold⟩ := (h t List.mem_cons_self).begins
    rw [lineText_cons, List.head?_append, hd] at hc
    obtain rfl : d = c := by simpa using hc
    exact hfold

/-- **Fields with their line ends have one decomposition.** -/
theorem eq_of_lineText_eq {ts us : List (List Char)} (hts : ∀ t ∈ ts, IsLine t)
    (hus : ∀ u ∈ us, IsLine u) (h : lineText ts = lineText us) : ts = us := by
  induction ts generalizing us with
  | nil =>
    cases us with
    | nil => rfl
    | cons u us => exact absurd h (by simp [lineText])
  | cons t ts ih =>
    cases us with
    | nil => exact absurd h (by simp [lineText])
    | cons u us =>
      have hts' : ∀ v ∈ ts, IsLine v := fun v hv => hts v (List.mem_cons_of_mem t hv)
      have hus' : ∀ v ∈ us, IsLine v := fun v hv => hus v (List.mem_cons_of_mem u hv)
      rw [lineText_cons, lineText_cons] at h
      obtain ⟨rfl, hrest⟩ := eq_and_eq_of_append_eq (hts t List.mem_cons_self)
        (hus u List.mem_cons_self) (isFold_head?_lineText hts') (isFold_head?_lineText hus') h
      rw [ih hts' hus' hrest]

/-! ## What a field keeps -/

/-- The name that a canonical field shows, in lower case. -/
def textName? (text : List Char) : Option (List Char) :=
  (cutFirst (· == ':') text).map fun (name, _) => lowerAscii name

/-- The domain that a canonical field shows if it names an author. -/
def textDomain? (text : List Char) : Option String :=
  (cutFirst (· == ':') text).bind fun (_, value) => fieldDomain? value

variable {f : Field} (form : Form)

/-- Where the name of a canonical field ends, and what value stands behind it. -/
theorem cutFirst_fieldText (hf : f.WellRead) :
    ∃ name value, cutFirst (· == ':') (fieldText form f.name.toList f.value.toList) =
        some (name, value) ∧
      lowerAscii name = lowerAscii f.name.toList ∧
      fieldDomain? value = fieldDomain? f.value.toList := by
  have hplain : ∀ c ∈ f.name.toList, (c == ':') = false := fun c hc => by
    simpa using (hf.plain c hc).1
  cases form with
  | simple =>
    refine ⟨f.name.toList, ' ' :: f.value.toList, ?_, rfl, ?_⟩
    · rw [fieldText, List.append_assoc]
      exact cutFirst_append_cons (by rfl) hplain _
    · rw [← fieldDomain?_trim, trim_cons_blank isBlank_space, fieldDomain?_trim]
  | relaxed =>
    refine ⟨lowerAscii f.name.toList, relaxedValue f.value.toList, ?_, lowerAscii_lowerAscii _,
      fieldDomain?_relaxedValue hf.folded⟩
    rw [fieldText, trim_eq_self hf.trimmed]
    apply cutFirst_append_cons (by rfl)
    intro c hc
    rw [beq_eq_false_iff_ne]
    rintro rfl
    exact (hf.plain ':' (mem_of_mem_lowerAscii (by decide) hc)).1 rfl

theorem textName?_fieldText (hf : f.WellRead) :
    textName? (fieldText form f.name.toList f.value.toList) = some (lowerAscii f.name.toList) := by
  obtain ⟨name, value, hcut, hname, -⟩ := cutFirst_fieldText form hf
  rw [textName?, hcut, ← hname]
  rfl

theorem textDomain?_fieldText (hf : f.WellRead) :
    textDomain? (fieldText form f.name.toList f.value.toList) = fieldDomain? f.value.toList := by
  obtain ⟨name, value, hcut, -, hvalue⟩ := cutFirst_fieldText form hf
  rw [textDomain?, hcut, ← hvalue]
  rfl

/-- **The canonical form of a field that was read is a line**, if the field has a name. -/
theorem isLine_fieldText (hf : f.WellRead) (hname : f.name.toList ≠ []) :
    IsLine (fieldText form f.name.toList f.value.toList) := by
  have hbegins : ∀ name : List Char, name ≠ [] → Trimmed name → ∀ rest : List Char,
      ∃ c, (name ++ rest).head? = some c ∧ isFold c = false := by
    intro name hne htrim rest
    obtain ⟨c, cs, rfl⟩ := List.exists_cons_of_ne_nil hne
    exact ⟨c, rfl, isSpaceChar_of_not_isBlank (htrim.head c rfl)⟩
  have hlf : '\n' ∉ f.name.toList := fun h => (hf.plain _ h).2 rfl
  cases form with
  | simple =>
    constructor
    · rw [fieldText, List.append_assoc]
      exact hbegins _ hname hf.trimmed _
    · intro a b hab
      rcases append_eq_append_cons hab with ⟨r, hr, -⟩ | ⟨l, -, hl⟩
      · have hmem : '\n' ∈ f.name.toList ++ [':', ' '] := by
          rw [hr]
          exact List.mem_append_right a List.mem_cons_self
        exact absurd hmem (by simpa using hlf)
      · exact (hf.folded l b hl).2
  | relaxed =>
    have hlower : '\n' ∉ lowerAscii f.name.toList := fun h =>
      hlf (mem_of_mem_lowerAscii (by decide) h)
    constructor
    · rw [fieldText, trim_eq_self hf.trimmed]
      exact hbegins _ (by simpa [lowerAscii] using hname) (trimmed_lowerAscii_iff.mpr hf.trimmed) _
    · intro a b hab
      have hmem : '\n' ∈ fieldText .relaxed f.name.toList f.value.toList := by
        rw [hab]
        exact List.mem_append_right a List.mem_cons_self
      rw [fieldText, trim_eq_self hf.trimmed, List.mem_append, List.mem_cons] at hmem
      rcases hmem with hmem | hmem | hmem
      · exact absurd hmem hlower
      · exact absurd hmem (by decide)
      · exact absurd hmem (no_lf_relaxedValue hf.folded)

/-! ## The signed fields -/

variable {h : Headers}

theorem named_of_mem_instances {name : String} (hf : f ∈ instances h name) :
    f ∈ h.fields ∧ f.named name = true := by
  rw [instances, List.mem_reverse] at hf
  exact List.mem_filter.mp hf

/-- A signed field is a field of the message, and has one of the names. -/
theorem mem_of_mem_signedFields {earlier names : List String}
    (hf : f ∈ signedFields h earlier names) : f ∈ h.fields ∧ ∃ n ∈ names, f.named n = true := by
  induction names generalizing earlier with
  | nil => exact absurd hf List.not_mem_nil
  | cons n names ih =>
    rw [signedFields, List.mem_append] at hf
    rcases hf with hf | hf
    · have hmem : f ∈ instances h n := List.mem_of_getElem? (Option.mem_toList.mp hf)
      have hf := named_of_mem_instances hmem
      exact ⟨hf.1, n, List.mem_cons_self, hf.2⟩
    · obtain ⟨hmem, m, hm, hnamed⟩ := ih hf
      exact ⟨hmem, m, List.mem_cons_of_mem n hm, hnamed⟩

/-- A name as it stands in a list of signed fields. -/
structure IsSignedName (name : String) : Prop where
  ne_nil : name.toList ≠ []
  lower : lowerAscii name.toList = name.toList

/-- Two names of a field are one. -/
theorem IsSignedName.eq_of_named {m n : String} (hm : IsSignedName m) (hn : IsSignedName n)
    (hfm : f.named m = true) (hfn : f.named n = true) : m = n := by
  rw [Field.named, eqIgnoreCase_iff] at hfm hfn
  rw [← String.toList_inj, ← hm.lower, ← hn.lower, ← hfm, ← hfn]

/-- **The first signed field of a name is the last of the message**, if the name is in the list. -/
theorem find?_signedFields {name : String} (hname : IsSignedName name) {names : List String}
    (hnames : ∀ n ∈ names, IsSignedName n) (hmem : name ∈ names) {earlier : List String}
    (hearlier : name ∉ earlier) :
    (signedFields h earlier names).find? (·.named name) = (instances h name).head? := by
  induction names generalizing earlier with
  | nil => exact absurd hmem List.not_mem_nil
  | cons n names ih =>
    rw [signedFields, List.find?_append]
    by_cases hn : n = name
    · subst hn
      rw [List.count_eq_zero_of_not_mem hearlier, ← List.head?_eq_getElem?]
      cases hhead : (instances h n).head? with
      | some f =>
        have hnamed := (named_of_mem_instances (List.mem_of_head? hhead)).2
        simp [hnamed]
      | none =>
        have hempty : instances h n = [] := List.head?_eq_none_iff.mp hhead
        rw [Option.toList_none, List.find?_nil, Option.none_or, List.find?_eq_none]
        intro f hf hnamed
        have hmem : f ∈ instances h n := by
          rw [instances, List.mem_reverse, List.mem_filter]
          exact ⟨(mem_of_mem_signedFields hf).1, hnamed⟩
        rw [hempty] at hmem
        exact List.not_mem_nil hmem
    · have hnone : (((instances h n)[earlier.count n]?).toList).find? (·.named name) = none := by
        rw [List.find?_eq_none]
        intro f hf hnamed
        have hf := named_of_mem_instances (List.mem_of_getElem? (Option.mem_toList.mp hf))
        exact hn ((hnames n List.mem_cons_self).eq_of_named hname hf.2 hnamed)
      rw [hnone, Option.none_or]
      apply ih (fun m hm => hnames m (List.mem_cons_of_mem n hm))
      · exact (List.mem_cons.mp hmem).resolve_left (Ne.symm hn)
      · rw [List.mem_cons, not_or]
        exact ⟨Ne.symm hn, hearlier⟩

/-! ## The author -/

/-- The canonical forms of the signed fields. -/
def signedTexts (form : Form) (h : Headers) (names : List String) : List (List Char) :=
  (signedFields h [] names).map fun f => fieldText form f.name.toList f.value.toList

theorem headerText_eq (form : Form) (h : Headers) (names : List String) (signature : String) :
    headerText form h names signature = lineText (signedTexts form h names) ++
      fieldText form "DKIM-Signature".toList signature.toList := by
  rw [headerText, lineText, signedTexts, List.flatMap_map]

/-- The canonical forms of the signed fields are lines. -/
theorem isLine_of_mem_signedTexts {names : List String} (hnames : ∀ n ∈ names, IsSignedName n)
    (hh : ∀ f ∈ h.fields, f.WellRead) : ∀ t ∈ signedTexts form h names, IsLine t := by
  intro t ht
  obtain ⟨f, hf, rfl⟩ := List.mem_map.mp ht
  obtain ⟨hmem, n, hn, hnamed⟩ := mem_of_mem_signedFields hf
  apply isLine_fieldText form (hh f hmem)
  intro hnil
  rw [Field.named, eqIgnoreCase_iff, hnil, (hnames n hn).lower] at hnamed
  exact (hnames n hn).ne_nil hnamed.symm

/-- **The signed text shows the canonical forms of the signed fields.** -/
theorem signedTexts_eq_of_headerBytes_eq {h h' : Headers} {names : List String} {signature : String}
    (hnames : ∀ n ∈ names, IsSignedName n) (hh : ∀ f ∈ h.fields, f.WellRead)
    (hh' : ∀ f ∈ h'.fields, f.WellRead)
    (heq : headerBytes form h names signature = headerBytes form h' names signature) :
    signedTexts form h names = signedTexts form h' names := by
  have htext := Utf8.encode_injective heq
  rw [headerText_eq, headerText_eq] at htext
  exact eq_of_lineText_eq (isLine_of_mem_signedTexts form hnames hh)
    (isLine_of_mem_signedTexts form hnames hh') (List.append_cancel_right htext)

/-- The author that canonical fields show. -/
def textAuthor? (texts : List (List Char)) : Option String :=
  (texts.find? fun t => textName? t == some "from".toList).bind textDomain?

/-- **The author of a message is read off the canonical forms of its signed fields**, if `From`
fields are signed. -/
theorem author?_eq_textAuthor? {m : Message} {names : List String}
    (hnames : ∀ n ∈ names, IsSignedName n) (hfrom : "from" ∈ names)
    (hm : ∀ f ∈ m.headers.fields, f.WellRead) :
    m.author? = textAuthor? (signedTexts form m.headers names) := by
  have hname : IsSignedName "from" := ⟨by decide, by decide⟩
  have hlast : m.headers.get? "from" = ((instances m.headers "from").head?).map (·.value) := by
    rw [instances, List.head?_reverse, Headers.get?, Headers.getAll, List.getLast?_map]
  have hfind : (signedTexts form m.headers names).find?
        (fun t => textName? t == some "from".toList) =
      ((instances m.headers "from").head?).map fun f =>
        fieldText form f.name.toList f.value.toList := by
    rw [← find?_signedFields hname hnames hfrom List.not_mem_nil, signedTexts, List.find?_map]
    congr 1
    apply List.find?_congr
    intro f hf
    rw [Function.comp_apply, textName?_fieldText form (hm f (mem_of_mem_signedFields hf).1)]
    rw [Bool.eq_iff_iff, beq_iff_eq, Option.some_inj, Field.named, eqIgnoreCase_iff, hname.lower]
  rw [author?_eq, textAuthor?, hlast, hfind]
  cases hhead : (instances m.headers "from").head? with
  | none => rfl
  | some f =>
    have hf := hm f (named_of_mem_instances (List.mem_of_head? hhead)).1
    exact (textDomain?_fieldText form hf).symm

end MailScreen.Dkim
