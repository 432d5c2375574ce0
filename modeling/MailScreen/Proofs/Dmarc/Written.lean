import MailScreen.Dmarc.Record
import MailScreen.Proofs.Text.LetterCase
import MailScreen.Proofs.Text.Numbers
import Mathlib.Data.List.Forall2

/-!
# Written policies

A policy is written as a list of tags: in any order, with blanks around the separators, with names
in any letter case, and with other tags among them. However it is written, it is read back.

* `Record.tags` is what there is to write of a policy, `Record.Written` says which texts write it.
  `written_toText`: the plain writing is one of them.
* `Tags.ofText_parts`: a list of tags is read part by part. `Tags.Hold` is what has to be found in
  it, and `Tags.hold_of_mem` shows that the order of the parts makes no difference to that.
* `ofTags_of_hold`: tags that hold a policy are read as that policy. `ofText_of_written` is the
  result for texts.
-/

namespace MailScreen.Dmarc

open MailScreen.Text

/-! ## Writing -/

/-- The names of the tags that are read. -/
def tagNames : List String :=
  ["v", "p", "sp", "pct", "adkim", "aspf", "rua", "ruf", "fo", "rf", "ri"]

/-- The names of the tags whose values may be written in any letter case. -/
def caselessNames : List String := ["p", "sp", "adkim", "aspf"]

/-- What a policy says under the name of a tag, if it says anything there. -/
def Record.value? (r : Record) : String → Option String
  | "v" => some "DMARC1"
  | "p" => some r.policy.name
  | "sp" => r.subdomainPolicy.map Policy.name
  | "pct" => some r.percentage.repr
  | "adkim" => some r.dkimAlignment.letter
  | "aspf" => some r.spfAlignment.letter
  | "rua" => r.aggregateReports
  | "ruf" => r.failureReports
  | "fo" => some r.failureOptions
  | "rf" => some r.reportFormat
  | "ri" => some r.reportInterval.repr
  | _ => none

/-- The tags of a policy. -/
def Record.tags (r : Record) : Tags :=
  tagNames.filterMap fun name => (r.value? name).map fun value => (name, value)

/-- A text between blanks. -/
def Padded (core text : List Char) : Prop :=
  ∃ front back, (∀ c ∈ front, isBlank c = true) ∧ (∀ c ∈ back, isBlank c = true) ∧
    text = front ++ core ++ back

/-- The text is the value of a tag of this name, as it may be written. -/
def WritesValue (name value : String) (text : List Char) : Prop :=
  if name ∈ caselessNames then lowerFull text = value.toList else text = value.toList

/-- A part between semicolons that writes a tag, with its name in some letter case. -/
def WritesTag (tag : String × String) (part : List Char) : Prop :=
  ∃ name value left right, lowerFull name = tag.1.toList ∧ WritesValue tag.1 tag.2 value ∧
    Padded name left ∧ Padded value right ∧ part = left ++ '=' :: right

/-- A part between semicolons that writes nothing of a policy: blanks, or another tag. -/
inductive IsOtherPart : List Char → Prop
  | blank {part : List Char} (h : ∀ c ∈ part, isBlank c = true) : IsOtherPart part
  | tag {name value : List Char} (hname : '=' ∉ name) (hplain : ';' ∉ name ++ value)
    (hother : String.ofList (lowerFull (trim name)) ∉ tagNames) : IsOtherPart (name ++ '=' :: value)

/-- **The text writes the policy**: its parts between semicolons are those that write a tag each, in
any order and with any other parts among them. -/
def Record.Written (r : Record) (text : String) : Prop :=
  ∃ own others parts, List.Forall₂ WritesTag r.tags own ∧ (∀ part ∈ others, IsOtherPart part) ∧
    parts.Perm (own ++ others) ∧ text = String.ofList ([';'].intercalate parts)

/-- A text that can be the value of a tag. -/
structure IsValue (value : List Char) : Prop where
  trimmed : Trimmed value
  plain : ';' ∉ value

/-- A policy that can be written: numbers in their ranges, and texts without separators. -/
structure Record.Writable (r : Record) : Prop where
  percentage : r.percentage ≤ 100
  aggregateReports : ∀ value ∈ r.aggregateReports, IsValue value.toList
  failureReports : ∀ value ∈ r.failureReports, IsValue value.toList
  failureOptions : IsValue r.failureOptions.toList
  reportFormat : IsValue r.reportFormat.toList
  reportInterval : r.reportInterval ≤ 4294967295

/-! ## What can be written -/

theorem Record.mem_tags_iff {r : Record} {name value : String} :
    (name, value) ∈ r.tags ↔ name ∈ tagNames ∧ r.value? name = some value := by
  simp [Record.tags, List.mem_filterMap, Option.map_eq_some_iff]

theorem isValue_of_plain {value : List Char} (h : Plain value) :
    IsValue value where
  trimmed := trimmed_of_no_blank fun c hc =>
    Bool.eq_false_iff.mpr fun hblank => h c hc (.inl hblank)
  plain hmem := h ';' hmem (by decide)

theorem plain_tagName {name : String} (h : name ∈ tagNames) : Plain name.toList := by
  revert name
  decide

theorem plain_number (n : Nat) : Plain n.repr.toList := by
  have hdigits : Plain hexDigits := by decide
  rw [Nat.toList_repr]
  exact fun c hc => hdigits c (mem_hexDigits_of_mem_toDigits (by decide) (by decide) hc)

/-- The values that may be written in any letter case. -/
def caselessValues : List String := ["none", "quarantine", "reject", "s", "r"]

theorem Record.mem_caselessValues (r : Record) {name value : String} (hname : name ∈ caselessNames)
    (h : r.value? name = some value) : value ∈ caselessValues := by
  have hpolicy (p : Policy) : p.name ∈ caselessValues := by
    cases p <;> decide
  have hletter (a : Alignment) : a.letter ∈ caselessValues := by
    cases a <;> decide
  simp only [caselessNames, List.mem_cons, List.not_mem_nil, or_false] at hname
  rcases hname with rfl | rfl | rfl | rfl
  · exact Option.some.inj h ▸ hpolicy r.policy
  · obtain ⟨p, -, rfl⟩ := Option.map_eq_some_iff.mp h
    exact hpolicy p
  · exact Option.some.inj h ▸ hletter r.dkimAlignment
  · exact Option.some.inj h ▸ hletter r.spfAlignment

/-- They hold no separators, and are in lower case. -/
theorem plain_caselessValue {value : String} (h : value ∈ caselessValues) :
    Plain value.toList ∧ lowerFull value.toList = value.toList := by
  revert value
  decide

theorem Record.Writable.isValue {r : Record} (hr : r.Writable) {name value : String}
    (hname : name ∈ tagNames) (h : r.value? name = some value) : IsValue value.toList := by
  have hcaseless (hmem : name ∈ caselessNames) : IsValue value.toList :=
    isValue_of_plain (plain_caselessValue (r.mem_caselessValues hmem h)).1
  simp only [tagNames, List.mem_cons, List.not_mem_nil, or_false] at hname
  rcases hname with rfl | rfl | rfl | rfl | rfl | rfl | rfl | rfl | rfl | rfl | rfl
  · obtain rfl := Option.some.inj h
    exact isValue_of_plain (by decide)
  · exact hcaseless (by decide)
  · exact hcaseless (by decide)
  · obtain rfl := Option.some.inj h
    exact isValue_of_plain (plain_number r.percentage)
  · exact hcaseless (by decide)
  · exact hcaseless (by decide)
  · exact hr.aggregateReports value h
  · exact hr.failureReports value h
  · obtain rfl := Option.some.inj h
    exact hr.failureOptions
  · obtain rfl := Option.some.inj h
    exact hr.reportFormat
  · obtain rfl := Option.some.inj h
    exact isValue_of_plain (plain_number r.reportInterval)

/-- However the value of a tag is written, it can be the value of a tag. -/
theorem Record.Writable.isValue_of_writesValue {r : Record} (hr : r.Writable)
    {name value : String} (hname : name ∈ tagNames) (h : r.value? name = some value)
    {text : List Char} (hwrites : WritesValue name value text) : IsValue text := by
  unfold WritesValue at hwrites
  split at hwrites
  · rename_i hcaseless
    have hplain := (plain_caselessValue (r.mem_caselessValues hcaseless h)).1
    exact isValue_of_plain (plain_of_lowerFull hwrites hplain)
  · rw [hwrites]
    exact hr.isValue hname h

/-! ## Reading parts -/

theorem Padded.trim_eq {core text : List Char} (h : Padded core text) (hcore : Trimmed core) :
    trim text = core := by
  obtain ⟨front, back, hfront, hback, rfl⟩ := h
  rw [trim_append_of_blank hback, trim_blank_append hfront, trim_eq_self hcore]

theorem Padded.not_mem {core text : List Char} {c : Char} (h : Padded core text)
    (hc : isBlank c = false) (hcore : c ∉ core) : c ∉ text := by
  obtain ⟨front, back, hfront, hback, rfl⟩ := h
  have hne : ∀ d, isBlank d = true → d ≠ c := fun d hd => (ne_of_isBlank hc hd).symm
  simp only [List.mem_append, not_or]
  exact ⟨⟨fun hmem => hne c (hfront c hmem) rfl, hcore⟩, fun hmem => hne c (hback c hmem) rfl⟩

/-- What is read of a part between semicolons. -/
def tagOf? (part : List Char) : Option (String × String) :=
  (cutFirst (· == '=') part).map fun (name, value) =>
    (String.ofList (lowerFull (trim name)), String.ofList (trim value))

theorem tagOf?_append {name : List Char} (h : '=' ∉ name) (value : List Char) :
    tagOf? (name ++ '=' :: value) =
      some (String.ofList (lowerFull (trim name)), String.ofList (trim value)) := by
  rw [tagOf?, cutFirst_append_cons (x := '=') rfl (beq_false_of_not_mem h), Option.map_some]

theorem tagOf?_eq_none {part : List Char} (h : '=' ∉ part) : tagOf? part = none := by
  rw [tagOf?, cutFirst_eq_none (beq_false_of_not_mem h), Option.map_none]

/-- The equals sign stays when a part is trimmed, and so do the name and the value beside it. -/
theorem trim_tag (name value : List Char) : trim (name ++ '=' :: value) =
    name.dropWhile isBlank ++ '=' :: dropEndWhile isBlank value := by
  have hstart : (name ++ '=' :: value).dropWhile isBlank =
      name.dropWhile isBlank ++ '=' :: value := by
    rw [List.dropWhile_append]
    split
    · rename_i hempty
      rw [List.isEmpty_iff.mp hempty]
      rfl
    · rfl
  have hlast : (name.dropWhile isBlank ++ ['=']).getLast? = some '=' := by simp
  rw [trim, dropAround, hstart, ← List.singleton_append, ← List.append_assoc,
    dropEndWhile_append_of_last hlast rfl, List.append_assoc, List.singleton_append]

/-- A part with an equals sign is read as a tag. -/
theorem exists_tag_trim {part : List Char} (h : '=' ∈ part) :
    ∃ e, tagOf? part = some e ∧ trim part ≠ [] ∧ tag (trim part) = .ok e := by
  obtain ⟨name, value, rfl, hname⟩ := List.eq_append_cons_of_mem h
  have hstart : '=' ∉ name.dropWhile isBlank := fun hmem =>
    hname ((List.dropWhile_suffix isBlank).subset hmem)
  have htrimName : trim (name.dropWhile isBlank) = trim name := by
    rw [trim, trim, dropAround, dropAround, List.dropWhile_idempotent]
  have htrimValue : trim (dropEndWhile isBlank value) = trim value := by
    obtain ⟨blanks, hvalue, hblanks⟩ := exists_eq_dropEndWhile_append isBlank value
    conv_rhs => rw [hvalue, trim_append_of_blank hblanks]
  rw [trim_tag]
  refine ⟨_, tagOf?_append hname value, by simp, ?_⟩
  rw [tag, cutFirst_append_cons (x := '=') rfl (beq_false_of_not_mem hstart)]
  simp only [htrimName, htrimValue]

/-- **What is written of a tag** is read as its name and its value. -/
theorem Record.Writable.tagOf?_of_writesTag {r : Record} (hr : r.Writable)
    {tag : String × String} (htag : tag ∈ r.tags) {part : List Char} (h : WritesTag tag part) :
    ';' ∉ part ∧ '=' ∈ part ∧
      ∃ w, tagOf? part = some (tag.1, w) ∧ WritesValue tag.1 tag.2 w.toList := by
  obtain ⟨hname, hvalue⟩ := Record.mem_tags_iff.mp htag
  obtain ⟨nameText, valueText, left, right, hlower, hwrites, hleft, hright, rfl⟩ := h
  have hplain := plain_of_lowerFull hlower (plain_tagName hname)
  have hnot (c : Char) (hc : IsTagSeparator c) : c ∉ nameText := fun hmem => hplain c hmem hc
  have hisValue := hr.isValue_of_writesValue hname hvalue hwrites
  refine ⟨?_, by simp, String.ofList valueText, ?_, by rwa [String.toList_ofList]⟩
  · simp only [List.mem_append, List.mem_cons, not_or]
    exact ⟨hleft.not_mem (by decide) (hnot ';' (by decide)), by decide,
      hright.not_mem (by decide) hisValue.plain⟩
  · rw [tagOf?_append (hleft.not_mem (by decide) (hnot '=' (by decide))),
      hleft.trim_eq (isValue_of_plain hplain).trimmed, hright.trim_eq hisValue.trimmed, hlower,
      String.ofList_toList]

/-- **Another part** is read as nothing or as a tag of another name. -/
theorem tagOf?_of_isOtherPart {part : List Char} (h : IsOtherPart part) :
    ';' ∉ part ∧ ((∀ c ∈ part, isBlank c = true) ∨ '=' ∈ part) ∧
      ∀ e, tagOf? part = some e → e.1 ∉ tagNames := by
  cases h with
  | blank h =>
    have hnot (c : Char) (hc : isBlank c = false) : c ∉ part := fun hmem =>
      ne_of_isBlank hc (h c hmem) rfl
    refine ⟨hnot ';' (by decide), .inl h, fun e he => ?_⟩
    rw [tagOf?_eq_none (hnot '=' (by decide))] at he
    cases he
  | @tag name value hname hplain hother =>
    rw [List.mem_append, not_or] at hplain
    refine ⟨?_, .inr (by simp), fun e he => ?_⟩
    · simp only [List.mem_append, List.mem_cons, not_or]
      exact ⟨hplain.1, by decide, hplain.2⟩
    · rw [tagOf?_append hname] at he
      obtain rfl := Option.some.inj he
      exact hother

/-- What is between the semicolons of a text that writes a policy. -/
theorem Record.Writable.tagOf?_of_part {r : Record} (hr : r.Writable) {part : List Char}
    (h : (∃ tag ∈ r.tags, WritesTag tag part) ∨ IsOtherPart part) :
    ';' ∉ part ∧ ((∀ c ∈ part, isBlank c = true) ∨ '=' ∈ part) ∧
      ∀ e, tagOf? part = some e → e.1 ∈ tagNames →
        ∃ tag ∈ r.tags, tag.1 = e.1 ∧ WritesValue tag.1 tag.2 e.2.toList := by
  rcases h with ⟨tag, htag, hpart⟩ | hpart
  · obtain ⟨hsemicolon, hequals, w, hentry, hw⟩ := hr.tagOf?_of_writesTag htag hpart
    refine ⟨hsemicolon, .inr hequals, fun e he _ => ⟨tag, htag, ?_⟩⟩
    obtain rfl := Option.some.inj (hentry.symm.trans he)
    exact ⟨rfl, hw⟩
  · obtain ⟨hsemicolon, hreadable, hother⟩ := tagOf?_of_isOtherPart hpart
    exact ⟨hsemicolon, hreadable, fun e he hname => absurd hname (hother e he)⟩

/-! ## Reading tags -/

/-- **A list of tags is read part by part.** -/
theorem Tags.ofText_parts {parts : List (List Char)} (hne : parts ≠ [])
    (hplain : ∀ part ∈ parts, ';' ∉ part)
    (hparts : ∀ part ∈ parts, (∀ c ∈ part, isBlank c = true) ∨ '=' ∈ part) :
    Tags.ofText (String.ofList ([';'].intercalate parts)) = .ok (parts.filterMap tagOf?) := by
  have hpieces : pieces (· == ';') ([';'].intercalate parts) = parts :=
    pieces_intercalate rfl hne fun part hpart => beq_false_of_not_mem (hplain part hpart)
  rw [Tags.ofText, String.toList_ofList, hpieces]
  clear hne hplain hpieces
  induction parts with
  | nil => rfl
  | cons part parts ih =>
    rw [List.forall_mem_cons] at hparts
    have hrest := ih hparts.2
    rw [List.map_cons]
    rcases hparts.1 with hblank | hmem
    -- A blank part is dropped before the tags are read, so it cannot be malformed.
    · have hempty : trim part = [] := by
        rw [← List.nil_append part, trim_append_of_blank hblank]
        rfl
      have hnone : tagOf? part = none := tagOf?_eq_none fun hmem =>
        absurd (hblank '=' hmem) (by decide)
      rw [hempty, List.filter_cons_of_neg (by simp), hrest, List.filterMap_cons_none hnone]
    · obtain ⟨e, hentry, hne, htag⟩ := exists_tag_trim hmem
      rw [List.filter_cons_of_pos (by simpa using hne), List.mapM_cons, htag,
        List.filterMap_cons_some hentry]
      show (List.mapM tag _ >>= fun entries => .ok (e :: entries)) = _
      rw [hrest]
      rfl

/-- A name that is there is found, with one of its values. -/
theorem Tags.exists_get? {t : Tags} {name value : String} (h : (name, value) ∈ t) :
    ∃ w, t.get? name = some w ∧ (name, w) ∈ t := by
  cases hlookup : t.reverse.lookup name with
  | none =>
    have hne := List.lookup_eq_none_iff.mp hlookup (name, value) (List.mem_reverse.mpr h)
    simp at hne
  | some w =>
    obtain ⟨l₁, l₂, hsplit, -⟩ := List.lookup_eq_some_iff.mp hlookup
    refine ⟨w, hlookup, List.mem_reverse.mp ?_⟩
    rw [hsplit]
    exact List.mem_append_right l₁ List.mem_cons_self

theorem Tags.get?_eq_none {t : Tags} {name : String} (h : ∀ e ∈ t, e.1 ≠ name) :
    t.get? name = none :=
  List.lookup_eq_none_iff.mpr fun e he =>
    bne_iff_ne.mpr (h e (List.mem_reverse.mp he)).symm

/-- The tags hold the policy: what is found under each name is what the policy says there, as it
may be written. -/
def Tags.Hold (t : Tags) (r : Record) : Prop :=
  ∀ name ∈ tagNames, match r.value? name with
    | some value => ∃ w, t.get? name = some w ∧ WritesValue name value w.toList
    | none => t.get? name = none

/-- **The order makes no difference**: it is enough that every tag of the policy is there, and no
other value under one of the names. -/
theorem Tags.hold_of_mem {t : Tags} {r : Record} (hall : ∀ tag ∈ r.tags, ∃ w, (tag.1, w) ∈ t)
    (honly : ∀ e ∈ t, e.1 ∈ tagNames →
      ∃ tag ∈ r.tags, tag.1 = e.1 ∧ WritesValue tag.1 tag.2 e.2.toList) : t.Hold r := by
  intro name hname
  cases hvalue : r.value? name with
  | some value =>
    -- Another entry of the name may be found than the one that is known: it must do as well.
    obtain ⟨w, hmem⟩ := hall _ (Record.mem_tags_iff.mpr ⟨hname, hvalue⟩)
    obtain ⟨w', hget, hmem'⟩ := Tags.exists_get? hmem
    obtain ⟨⟨name', value'⟩, htag, rfl, hwrites⟩ := honly _ hmem' hname
    obtain rfl := Option.some.inj (hvalue.symm.trans (Record.mem_tags_iff.mp htag).2)
    exact ⟨w', hget, hwrites⟩
  | none =>
    refine Tags.get?_eq_none fun e he heq => ?_
    obtain ⟨⟨name', value'⟩, htag, hname', -⟩ := honly e he (heq ▸ hname)
    have hvalue' := (Record.mem_tags_iff.mp htag).2
    rw [show name' = name from hname'.trans heq, hvalue] at hvalue'
    cases hvalue'

theorem exists_of_forall₂ {α β : Type} {R : α → β → Prop} {xs : List α} {ys : List β}
    (h : List.Forall₂ R xs ys) :
    (∀ x ∈ xs, ∃ y ∈ ys, R x y) ∧ ∀ y ∈ ys, ∃ x ∈ xs, R x y := by
  induction h with
  | nil => simp
  | cons hxy _ ih =>
    refine ⟨List.forall_mem_cons.mpr ⟨⟨_, List.mem_cons_self, hxy⟩, fun x hx => ?_⟩,
      List.forall_mem_cons.mpr ⟨⟨_, List.mem_cons_self, hxy⟩, fun y hy => ?_⟩⟩
    · obtain ⟨y, hy, h⟩ := ih.1 x hx
      exact ⟨y, List.mem_cons_of_mem _ hy, h⟩
    · obtain ⟨x, hx, h⟩ := ih.2 y hy
      exact ⟨x, List.mem_cons_of_mem _ hx, h⟩

/-- **A text that writes a policy is read as tags that hold it.** -/
theorem Record.Written.exists_tags {r : Record} {text : String} (hr : r.Writable)
    (h : r.Written text) : ∃ t, Tags.ofText text = .ok t ∧ t.Hold r := by
  obtain ⟨own, others, parts, hown, hothers, hperm, rfl⟩ := h
  obtain ⟨hwritten, hwrites⟩ := exists_of_forall₂ hown
  have hparts (part : List Char) (hpart : part ∈ parts) :
      (∃ tag ∈ r.tags, WritesTag tag part) ∨ IsOtherPart part :=
    (List.mem_append.mp (hperm.mem_iff.mp hpart)).imp (hwrites part) (hothers part)
  have hall : ∀ tag ∈ r.tags, ∃ w, (tag.1, w) ∈ parts.filterMap tagOf? := by
    intro tag htag
    obtain ⟨part, hpart, h⟩ := hwritten tag htag
    obtain ⟨-, -, w, hentry, -⟩ := hr.tagOf?_of_writesTag htag h
    exact ⟨w, List.mem_filterMap.mpr
      ⟨part, hperm.mem_iff.mpr (List.mem_append_left others hpart), hentry⟩⟩
  have hne : parts ≠ [] := by
    rintro rfl
    obtain ⟨w, hw⟩ := hall ("v", "DMARC1") (Record.mem_tags_iff.mpr ⟨by decide, rfl⟩)
    cases hw
  refine ⟨_, Tags.ofText_parts hne (fun part hpart => (hr.tagOf?_of_part (hparts part hpart)).1)
    (fun part hpart => (hr.tagOf?_of_part (hparts part hpart)).2.1),
    Tags.hold_of_mem hall fun e he hname => ?_⟩
  obtain ⟨part, hpart, hentry⟩ := List.mem_filterMap.mp he
  exact (hr.tagOf?_of_part (hparts part hpart)).2.2 e hentry hname

/-! ## Reading policies -/

theorem readPolicy_of_lowerFull {p : Policy} {w : String} (h : lowerFull w.toList = p.name.toList) :
    readPolicy w = .ok p := by
  have hlower : lowerFullString w = p.name := by rw [lowerFullString, h, String.ofList_toList]
  rw [readPolicy, hlower]
  cases p <;> rfl

theorem readAlignment_of_lowerFull {a : Alignment} {w : String}
    (h : lowerFull w.toList = a.letter.toList) : readAlignment w = .ok a := by
  have hlower : lowerFullString w = a.letter := by rw [lowerFullString, h, String.ofList_toList]
  rw [readAlignment, hlower]
  cases a <;> rfl

theorem readPercentage_repr {n : Nat} (h : n ≤ 100) : readPercentage n.repr = .ok n := by
  rw [readPercentage, Nat.toList_repr, unsigned?_toDigits h]

theorem readInterval_repr {n : Nat} (h : n ≤ 4294967295) : readInterval n.repr = .ok n := by
  rw [readInterval, Nat.toList_repr, unsigned?_toDigits h]

section Hold

variable {t : Tags} {r : Record} {name value : String}

/-- What is found where a policy says something. -/
theorem Tags.Hold.get?_some (h : t.Hold r) (hname : name ∈ tagNames)
    (hvalue : r.value? name = some value) :
    ∃ w, t.get? name = some w ∧ WritesValue name value w.toList := by
  have hheld := h name hname
  rwa [hvalue] at hheld

/-- Nothing is found where a policy says nothing. -/
theorem Tags.Hold.get?_none (h : t.Hold r) (hname : name ∈ tagNames)
    (hvalue : r.value? name = none) : t.get? name = none := by
  have hheld := h name hname
  rwa [hvalue] at hheld

/-- A value whose letter case counts is found as it is. -/
theorem Tags.Hold.get?_eq (h : t.Hold r) (hname : name ∈ tagNames)
    (hexact : name ∉ caselessNames) : t.get? name = r.value? name := by
  cases hvalue : r.value? name with
  | none => exact h.get?_none hname hvalue
  | some value =>
    obtain ⟨w, hget, hwrites⟩ := h.get?_some hname hvalue
    rw [WritesValue, if_neg hexact, String.toList_inj] at hwrites
    rw [hget, hwrites]

/-- A value that is found in some letter case. -/
theorem Tags.Hold.get?_caseless (h : t.Hold r) (hname : name ∈ tagNames)
    (hcaseless : name ∈ caselessNames) (hvalue : r.value? name = some value) :
    ∃ w, t.get? name = some w ∧ lowerFull w.toList = value.toList := by
  obtain ⟨w, hget, hwrites⟩ := h.get?_some hname hvalue
  rw [WritesValue, if_pos hcaseless] at hwrites
  exact ⟨w, hget, hwrites⟩

theorem Tags.Hold.readOr_exact {α : Type} {read : String → Except Fault α} {a : α} (h : t.Hold r)
    (hname : name ∈ tagNames) (hexact : name ∉ caselessNames) (hvalue : r.value? name = some value)
    (hread : read value = .ok a) (absent : α) : readOr t name absent read = .ok a := by
  rw [readOr, h.get?_eq hname hexact, hvalue]
  exact hread

theorem Tags.Hold.readOr_caseless {α : Type} {read : String → Except Fault α} {a : α}
    (h : t.Hold r) (hname : name ∈ tagNames) (hcaseless : name ∈ caselessNames)
    (hvalue : r.value? name = some value)
    (hread : ∀ w, lowerFull w.toList = value.toList → read w = .ok a) (absent : α) :
    readOr t name absent read = .ok a := by
  obtain ⟨w, hget, hw⟩ := h.get?_caseless hname hcaseless hvalue
  rw [readOr, hget]
  exact hread w hw

theorem Tags.Hold.requiredPolicy (h : t.Hold r) : requiredPolicy t = .ok r.policy := by
  obtain ⟨w, hget, hw⟩ : ∃ w, t.get? "p" = some w ∧ lowerFull w.toList = r.policy.name.toList :=
    h.get?_caseless (by decide) (by decide) rfl
  rw [Dmarc.requiredPolicy, hget]
  exact readPolicy_of_lowerFull hw

theorem Tags.Hold.readOr_subdomainPolicy (h : t.Hold r) :
    readOr t "sp" none (fun value => (readPolicy value).map some) = .ok r.subdomainPolicy := by
  have hvalue : r.value? "sp" = r.subdomainPolicy.map Policy.name := rfl
  cases hsubdomain : r.subdomainPolicy with
  | none =>
    rw [hsubdomain] at hvalue
    rw [readOr, h.get?_none (by decide) hvalue]
  | some p =>
    rw [hsubdomain] at hvalue
    exact h.readOr_caseless (by decide) (by decide) hvalue
      (fun w hw => congrArg (Except.map some) (readPolicy_of_lowerFull hw)) none

/-- **Tags that hold a policy are read as that policy.** -/
theorem Record.ofTags_of_hold (hr : r.Writable) (h : t.Hold r) : Record.ofTags t = .ok r := by
  have hversion : t.get? "v" = some "DMARC1" := h.get?_eq (by decide) (by decide)
  have hpct (absent : Nat) : readOr t "pct" absent readPercentage = .ok r.percentage :=
    h.readOr_exact (by decide) (by decide) rfl (readPercentage_repr hr.percentage) absent
  have hadkim (absent : Alignment) : readOr t "adkim" absent readAlignment = .ok r.dkimAlignment :=
    h.readOr_caseless (by decide) (by decide) rfl (fun _ => readAlignment_of_lowerFull) absent
  have haspf (absent : Alignment) : readOr t "aspf" absent readAlignment = .ok r.spfAlignment :=
    h.readOr_caseless (by decide) (by decide) rfl (fun _ => readAlignment_of_lowerFull) absent
  have hri (absent : Nat) : readOr t "ri" absent readInterval = .ok r.reportInterval :=
    h.readOr_exact (by decide) (by decide) rfl (readInterval_repr hr.reportInterval) absent
  have hrua : t.get? "rua" = r.aggregateReports := h.get?_eq (by decide) (by decide)
  have hruf : t.get? "ruf" = r.failureReports := h.get?_eq (by decide) (by decide)
  have hfo : t.get? "fo" = some r.failureOptions := h.get?_eq (by decide) (by decide)
  have hrf : t.get? "rf" = some r.reportFormat := h.get?_eq (by decide) (by decide)
  rw [Record.ofTags, if_neg (not_not.mpr hversion)]
  simp only [h.requiredPolicy, h.readOr_subdomainPolicy, hpct, hadkim, haspf, hri, hrua, hruf, hfo,
    hrf]
  rfl

end Hold

/-! ## The plain writing -/

/-- A policy as it is written plainly. -/
def Record.toText (r : Record) : String :=
  String.ofList ([';'].intercalate (r.tags.map fun tag => tag.1.toList ++ '=' :: tag.2.toList))

theorem padded_self (cs : List Char) : Padded cs cs :=
  ⟨[], [], by simp, by simp, by simp⟩

theorem Record.writesValue_self (r : Record) {name value : String}
    (h : r.value? name = some value) : WritesValue name value value.toList := by
  unfold WritesValue
  split
  · rename_i hcaseless
    exact (plain_caselessValue (r.mem_caselessValues hcaseless h)).2
  · rfl

/-- The plain writing is one of those that are read. -/
theorem Record.written_toText (r : Record) : r.Written r.toText := by
  have hnames : ∀ name ∈ tagNames, lowerFull name.toList = name.toList := by decide
  refine ⟨_, [], _, ?_, by simp, by rw [List.append_nil], rfl⟩
  rw [List.forall₂_map_right_iff, List.forall₂_same]
  intro tag htag
  obtain ⟨hname, hvalue⟩ := Record.mem_tags_iff.mp htag
  exact ⟨_, _, _, _, hnames _ hname, r.writesValue_self hvalue, padded_self _, padded_self _, rfl⟩

/-! ## Any writing -/

theorem padded_trim (cs : List Char) : Padded (trim cs) cs := by
  obtain ⟨front, back, hcs, hfront, hback⟩ := exists_eq_trim cs
  exact ⟨front, back, hfront, hback, hcs⟩

instance (name value : String) (text : List Char) : Decidable (WritesValue name value text) :=
  inferInstanceAs (Decidable (ite _ _ _))

/-- Whether a part writes a tag with a name in capital and small letters. -/
def writesAsciiTag (tag : String × String) (part : List Char) : Bool :=
  (cutFirst (· == '=') part).any fun (left, right) =>
    tag.1 ∈ tagNames ∧ lowerAscii (trim left) = tag.1.toList ∧ WritesValue tag.1 tag.2 (trim right)

theorem writesTag_of_ascii {tag : String × String} {part : List Char}
    (h : writesAsciiTag tag part = true) : WritesTag tag part := by
  have hascii : ∀ name ∈ tagNames, name.toList.all (fun c => decide (c.toNat < 0x80)) = true := by
    decide
  obtain ⟨⟨left, right⟩, hcut, hsides⟩ := (Option.any_eq_true _ _).mp h
  obtain ⟨hname, hlower, hvalue⟩ := of_decide_eq_true hsides
  obtain ⟨x, hx, -, rfl⟩ := eq_of_cutFirst hcut
  obtain rfl := eq_of_beq hx
  exact ⟨_, _, left, right, lowerFull_of_lowerAscii hlower (forall_mem_of_all (hascii tag.1 hname)),
    hvalue, padded_trim left, padded_trim right, rfl⟩

/-- **A policy is read back however it is written**: with its tags in any order, any blanks around
the separators, any letter case in the names and in the values where it does not count, and any
other tags among them. -/
theorem Record.ofText_of_written {r : Record} (hr : r.Writable) :
    r.Written r.toText ∧ ∀ text, r.Written text → Record.ofText text = .ok r := by
  refine ⟨r.written_toText, fun text h => ?_⟩
  obtain ⟨t, htext, hheld⟩ := h.exists_tags hr
  rw [Record.ofText, htext]
  exact Record.ofTags_of_hold hr hheld

/-- A policy with its tags in another order, blanks and capital letters, a tag of another name and a
semicolon at the end; the address for reports holds an equals sign. -/
theorem Record.ofText_of_written_disordered :
    let r : Record := ⟨.reject, some .quarantine, 100, .strict, .relaxed,
      some "mailto:a@example.com?s=x", none, "1:d", "", 4294967295⟩
    r.Writable ∧ Record.ofText ("p = Reject ;Ri=4294967295; x=v=1;V=DMARC1 ; SP=quaranTine;" ++
      "pct=100;AdKim= S;aspf=r;rua =mailto:a@example.com?s=x;fo=1:d;rf=;") = .ok r := by
  intro r
  have hvalue {value : List Char}
      (h : value.all (fun c => decide (isBlank c = false ∧ c ≠ ';')) = true) : IsValue value :=
    ⟨trimmed_of_no_blank fun c hc => (forall_mem_of_all h c hc).1,
      fun hmem => (forall_mem_of_all h _ hmem).2 rfl⟩
  have hr : r.Writable := {
    percentage := by decide
    aggregateReports := fun value h => Option.some.inj h ▸ hvalue (by decide)
    failureReports := fun value h => nomatch h
    failureOptions := hvalue (by decide)
    reportFormat := hvalue (by decide)
    reportInterval := by decide }
  refine ⟨hr, (Record.ofText_of_written hr).2 _ ?_⟩
  let own : List (List Char) := ["V=DMARC1 ".toList, "p = Reject ".toList, " SP=quaranTine".toList,
    "pct=100".toList, "AdKim= S".toList, "aspf=r".toList, "rua =mailto:a@example.com?s=x".toList,
    "fo=1:d".toList, "rf=".toList, "Ri=4294967295".toList]
  let others : List (List Char) := [" x=v=1".toList, []]
  let parts : List (List Char) := ["p = Reject ".toList, "Ri=4294967295".toList, " x=v=1".toList,
    "V=DMARC1 ".toList, " SP=quaranTine".toList, "pct=100".toList, "AdKim= S".toList,
    "aspf=r".toList, "rua =mailto:a@example.com?s=x".toList, "fo=1:d".toList, "rf=".toList, []]
  have hown : List.Forall₂ WritesTag r.tags own := by
    refine .cons ?_ (.cons ?_ (.cons ?_ (.cons ?_ (.cons ?_ (.cons ?_ (.cons ?_ (.cons ?_
      (.cons ?_ (.cons ?_ .nil)))))))))
    all_goals exact writesTag_of_ascii (by decide +kernel)
  have hothers : ∀ part ∈ others, IsOtherPart part := by
    refine List.forall_mem_cons.mpr ⟨?_, List.forall_mem_singleton.mpr (.blank (by simp))⟩
    exact IsOtherPart.tag (show '=' ∉ " x".toList by decide) (by decide) (by decide)
  exact ⟨own, others, parts, hown, hothers, by decide, by decide⟩

end MailScreen.Dmarc
