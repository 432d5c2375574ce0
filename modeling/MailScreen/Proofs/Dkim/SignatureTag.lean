import MailScreen.Proofs.Dkim.Tags
import MailScreen.Proofs.Text.Ascii
import Mathlib.Data.List.Nodup

/-!
# Two readings of the tag that holds the signature

The text of a signature is read twice: as a list of tags, and as the text that is signed, which
lacks the value of the tag `b`. Whether both take the same part for that tag depends on one thing,
whether the sign `=` follows its name at once.

* `addParts_eq_ok_iff`: a list is read from the parts that are not blank, if each is a tag and no
  name occurs twice.
* `TagPlace` is where a tag `b` stands in a text; `tag?_part` and `signatureTag?_part` say how the
  two readings take it, and `tag?_of_signatureTag?` that the second takes no other part.
* `withoutSignature_of_ofText`: in every text that is read as a list with a tag `b` this tag has a
  place. Emptied there, the text is read as the same list with an empty `b`; and this is the text
  that is signed unless blanks stand between the name and its sign: then there is none.
-/

namespace MailScreen.Dkim

open MailScreen.Text

namespace Tags

/-! ## What a list is read from -/

/-- The tags in some parts. -/
def ofParts (parts : List (List Char)) : Tags :=
  parts.filterMap fun part => tag? (trim part)

/-- The list with another value for a tag. -/
def withValue (t : Tags) (name value : String) : Tags :=
  t.map fun tag => if tag.1 = name then (name, value) else tag

variable {t before after : Tags} {name value : String}

theorem contains_iff : t.contains name = true ↔ name ∈ t.map (·.1) := by
  constructor
  · intro h
    by_contra hnot
    rw [contains_eq_false hnot] at h
    exact Bool.false_ne_true h
  · intro h
    obtain ⟨tag, htag, rfl⟩ := List.mem_map.mp h
    rw [contains, get?, Option.isSome_iff_ne_none, ne_eq, List.lookup_eq_none_iff]
    intro hnone
    simpa using hnone tag htag

/-- **The parts of a list**: each is blank or a tag, and no name occurs twice. -/
theorem addParts_eq_ok_iff {parts : List (List Char)} (hbefore : (before.map (·.1)).Nodup) :
    addParts before parts = .ok t ↔
      (∀ part ∈ parts, trim part = [] ∨ (tag? (trim part)).isSome = true) ∧
        t = before ++ ofParts parts ∧ (t.map (·.1)).Nodup := by
  induction parts generalizing before with
  | nil =>
    rw [addParts, ofParts, List.filterMap_nil, List.append_nil, Except.ok.injEq]
    constructor
    · rintro rfl
      exact ⟨by simp, rfl, hbefore⟩
    · rintro ⟨-, rfl, -⟩
      rfl
  | cons part parts ih =>
    rw [addParts, List.forall_mem_cons]
    by_cases hblank : trim part = []
    · have hskipped : ofParts (part :: parts) = ofParts parts := by
        rw [ofParts, List.filterMap_cons, hblank]
        rfl
      rw [hskipped, if_pos (List.isEmpty_iff.mpr hblank), ih hbefore]
      simp [hblank]
    · rw [if_neg fun h => hblank (List.isEmpty_iff.mp h)]
      cases htag : tag? (trim part) with
      | none => simp [hblank]
      | some tag =>
        have hadded : before ++ ofParts (part :: parts) = before ++ [tag] ++ ofParts parts := by
          rw [ofParts, List.filterMap_cons, htag, List.append_assoc]
          rfl
        rw [hadded]
        by_cases hmem : tag.1 ∈ before.map (·.1)
        · simp only [contains_iff.mpr hmem, if_true]
          refine iff_of_false (by simp) ?_
          rintro ⟨-, rfl, hnodup⟩
          rw [List.map_append, List.map_append, List.append_assoc, List.nodup_append] at hnodup
          exact hnodup.2.2 _ hmem _ (List.mem_append_left _ List.mem_cons_self) rfl
        · have hnew : ((before ++ [tag]).map (·.1)).Nodup := by
            rw [List.map_append, List.map_singleton, ← List.concat_eq_append]
            exact List.Nodup.concat hmem hbefore
          simp only [contains_eq_false hmem, Bool.false_eq_true, if_false]
          rw [ih hnew]
          simp

/-- A list is read from its parts. -/
theorem ofChars_eq_ok_iff {cs : List Char} : ofChars cs = .ok t ↔
    (∀ part ∈ pieces (· == ';') cs, trim part = [] ∨ (tag? (trim part)).isSome = true) ∧
      t = ofParts (pieces (· == ';') cs) ∧ (t.map (·.1)).Nodup :=
  addParts_eq_ok_iff List.nodup_nil

theorem ofParts_append_cons {part : List Char} {tag : String × String}
    (h : tag? (trim part) = some tag) (front back : List (List Char)) :
    ofParts (front ++ part :: back) = ofParts front ++ tag :: ofParts back := by
  rw [ofParts, List.filterMap_append, List.filterMap_cons, h]
  rfl

/-! ## Another value -/

theorem get?_cons (tag : String × String) (t : Tags) (name : String) :
    get? (tag :: t) name = if name = tag.1 then some tag.2 else t.get? name := by
  rw [get?, List.lookup_cons]
  by_cases h : name = tag.1
  · simp [h]
  · rw [beq_false_of_ne h, if_neg h]
    rfl

/-- Only the one tag has another value. -/
theorem get?_withValue (t : Tags) (name value other : String) :
    (t.withValue name value).get? other =
      if other = name then (t.get? other).map fun _ => value else t.get? other := by
  induction t with
  | nil => simp [withValue, get?]
  | cons tag t ih =>
    have hhead : withValue (tag :: t) name value =
      (if tag.1 = name then (name, value) else tag) :: withValue t name value := rfl
    rw [hhead, get?_cons, get?_cons, ih]
    by_cases htag : tag.1 = name
    · subst htag
      by_cases hother : other = tag.1
      · simp [hother]
      · simp [hother]
    · by_cases hother : other = name
      · subst hother
        simp [htag, Ne.symm htag]
      · simp [htag, hother]

theorem map_fst_withValue (t : Tags) (name value : String) :
    (t.withValue name value).map (·.1) = t.map (·.1) := by
  rw [withValue, List.map_map]
  refine List.map_congr_left fun tag _ => ?_
  by_cases h : tag.1 = name
  · simp [h]
  · simp [h]

theorem withValue_eq_self (h : name ∉ t.map (·.1)) : t.withValue name value = t := by
  refine (List.map_congr_left fun tag htag => if_neg ?_).trans (List.map_id t)
  rintro rfl
  exact h (List.mem_map_of_mem htag)

/-- A tag that stands between others has another value there. -/
theorem withValue_append_cons {value' : String} (hbefore : name ∉ before.map (·.1))
    (hafter : name ∉ after.map (·.1)) :
    withValue (before ++ (name, value) :: after) name value' =
      before ++ (name, value') :: after := by
  have hsplit : withValue (before ++ (name, value) :: after) name value' =
      before.withValue name value' ++ (if name = name then (name, value') else (name, value)) ::
        after.withValue name value' := List.map_append
  rw [hsplit, if_pos rfl, withValue_eq_self hbefore, withValue_eq_self hafter]

/-- A tag that stands between others. -/
theorem get?_append_cons (h : name ∉ before.map (·.1)) :
    get? (before ++ (name, value) :: after) name = some value := by
  have hnone : before.lookup name = none := by
    rw [List.lookup_eq_none_iff]
    intro tag htag
    rw [bne_iff_ne]
    rintro rfl
    exact h (List.mem_map_of_mem htag)
  rw [get?, List.lookup_append, hnone]
  simp

end Tags

/-! ## The place of the tag -/

/-- **Where a tag `b` stands in a text**: what stands before and after its part, the blanks before
its name, the name, the blanks between the name and the sign `=`, and what follows the sign. -/
structure TagPlace where
  before : List Char
  indent : List Char
  letter : Char
  gap : List Char
  value : List Char
  after : List Char

namespace TagPlace

/-- The part that is the tag. -/
def part (p : TagPlace) : List Char :=
  p.indent ++ p.letter :: p.gap ++ '=' :: p.value

/-- The place of the tag in the text in which its value is removed. -/
def emptied (p : TagPlace) : TagPlace :=
  { p with value := [] }

/-- The whole text. -/
def text (p : TagPlace) : List Char :=
  p.before ++ p.part ++ p.after

/-- What makes a part the tag `b`. -/
structure IsTag (p : TagPlace) : Prop where
  indent : ∀ c ∈ p.indent, isBlank c = true
  letter : p.letter.toLower = 'b'
  gap : ∀ c ∈ p.gap, isBlank c = true

/-- **The place is in a text**: its part is a tag `b`, and stands between semicolons or the ends. -/
structure IsIn (p : TagPlace) (cs : List Char) : Prop extends p.IsTag where
  text : p.text = cs
  value : ';' ∉ p.value
  before : ∀ c ∈ p.before.getLast?, c = ';'
  after : ∀ c ∈ p.after.head?, c = ';'

variable {p : TagPlace}

theorem IsTag.emptied (h : p.IsTag) : p.emptied.IsTag :=
  ⟨h.indent, h.letter, h.gap⟩

theorem IsTag.letter_not_blank (h : p.IsTag) : isBlank p.letter = false := by
  rw [← isBlank_toLower, h.letter]
  rfl

/-- Emptying adds nothing. -/
theorem mem_part_of_mem_emptied {c : Char} (h : c ∈ p.emptied.part) : c ∈ p.part := by
  simp only [part, TagPlace.emptied, List.mem_append, List.mem_cons, List.not_mem_nil] at h ⊢
  tauto

/-- A part as it begins behind its blanks. -/
theorem IsTag.dropWhile_part (h : p.IsTag) :
    p.part.dropWhile isBlank = p.letter :: p.gap ++ '=' :: p.value := by
  rw [part, List.append_assoc, List.dropWhile_append_of_pos h.indent, List.cons_append,
    List.dropWhile_cons, if_neg (by simp [h.letter_not_blank])]

/-- **As a tag** the part has the name `b` and the value that follows the sign, without blanks. -/
theorem tag?_part (h : p.IsTag) :
    Tags.tag? (trim p.part) = some ("b", String.ofList (trim p.value)) := by
  have htrim : trim p.part = p.letter :: p.gap ++ '=' :: dropEndWhile isBlank p.value := by
    have hlast : (p.letter :: p.gap ++ ['=']).getLast? = some '=' := List.getLast?_concat
    rw [trim, dropAround, h.dropWhile_part, ← List.singleton_append (x := '='), ← List.append_assoc,
      dropEndWhile_append_of_last hlast (by rfl)]
    simp
  have hname : ∀ c ∈ p.letter :: p.gap, (c == '=') = false := by
    intro c hc
    rw [beq_eq_false_iff_ne]
    rintro rfl
    rcases List.mem_cons.mp hc with hc | hc
    · have hletter := h.letter
      rw [← hc] at hletter
      exact absurd hletter (by decide)
    · exact absurd (h.gap _ hc) (by decide)
  have hb : lowerAscii (trim (p.letter :: p.gap)) = ['b'] := by
    have hletter : trim [p.letter] = [p.letter] :=
      trim_eq_self (trimmed_of_no_blank (by simp [h.letter_not_blank]))
    rw [← List.singleton_append, trim_append_of_blank h.gap, hletter]
    simp [lowerAscii, h.letter]
  have hvalue : trim (dropEndWhile isBlank p.value) = trim p.value := by
    obtain ⟨back, hback, hblank⟩ := exists_eq_dropEndWhile_append isBlank p.value
    rw [← trim_append_of_blank hblank, ← hback]
  rw [Tags.tag?, htrim, cutFirst_append_cons (by rfl) hname]
  simp only [Option.map_some, hb, hvalue]

/-- **As what is emptied** the part is taken only if the sign follows the name at once. -/
theorem signatureTag?_part (h : p.IsTag) :
    signatureTag? p.part = if p.gap = [] then some p.emptied.part else none := by
  rw [signatureTag?, h.dropWhile_part]
  by_cases hgap : p.gap = []
  · have hindent : p.part.takeWhile isBlank = p.indent := by
      rw [part, List.append_assoc, List.takeWhile_append_of_pos h.indent, List.cons_append,
        List.takeWhile_cons, if_neg (by simp [h.letter_not_blank]), List.append_nil]
    rw [hgap, if_pos rfl, hindent]
    simp [h.letter, TagPlace.emptied, part, hgap]
  · obtain ⟨c, cs, hc⟩ := List.exists_cons_of_ne_nil hgap
    have hne : c ≠ '=' := by
      rintro rfl
      exact absurd (h.gap '=' (by simp [hc])) (by decide)
    rw [if_neg hgap, hc]
    simp [hne]

/-- **What is emptied is a tag `b`.** -/
theorem tag?_of_signatureTag? {cs emptied : List Char} (h : signatureTag? cs = some emptied) :
    ∃ value, Tags.tag? (trim cs) = some ("b", value) := by
  unfold signatureTag? at h
  split at h
  · rename_i letter value heq
    split at h
    · rename_i hletter
      have hcs : cs = TagPlace.part ⟨[], cs.takeWhile isBlank, letter, [], value, []⟩ := by
        rw [part, List.append_assoc, List.singleton_append, ← heq, List.takeWhile_append_dropWhile]
      rw [hcs]
      exact ⟨_, tag?_part ⟨fun c hc => List.mem_takeWhile_imp hc, hletter, nofun⟩⟩
    · cases h
  · cases h

/-- **Every tag `b` has a place** in its part. -/
theorem exists_isTag {cs : List Char} {value : String}
    (h : Tags.tag? (trim cs) = some ("b", value)) (before after : List Char) :
    ∃ p : TagPlace, p.IsTag ∧ p.part = cs ∧ p.before = before ∧ p.after = after := by
  obtain ⟨front, back, hcs, hfront, hback⟩ := exists_eq_trim cs
  obtain ⟨⟨name, rest⟩, hcut, htag⟩ := Option.map_eq_some_iff.mp h
  obtain ⟨sign, hsign, -, htrim⟩ := eq_of_cutFirst hcut
  obtain rfl : sign = '=' := eq_of_beq hsign
  obtain ⟨indent, gap, hname, hindent, hgap⟩ := exists_eq_trim name
  have hlower : lowerAscii (trim name) = ['b'] := by
    have := congrArg (fun tag : String × String => tag.1.toList) htag
    simpa using this
  obtain ⟨letter, hletter, hb⟩ := List.map_eq_singleton_iff.mp hlower
  refine ⟨⟨before, front ++ indent, letter, gap, rest ++ back, after⟩, ⟨?_, hb, hgap⟩, ?_, rfl, rfl⟩
  · intro c hc
    rcases List.mem_append.mp hc with hc | hc
    · exact hfront c hc
    · exact hindent c hc
  · rw [hcs, htrim, hname, hletter]
    simp [part]

end TagPlace

/-! ## The two readings of a text -/

theorem emptyFirst?_eq_none {parts : List (List Char)}
    (h : ∀ part ∈ parts, signatureTag? part = none) : emptyFirst? parts = none := by
  induction parts with
  | nil => rfl
  | cons part parts ih =>
    rw [emptyFirst?, h part List.mem_cons_self, ih fun q hq => h q (List.mem_cons_of_mem part hq)]
    rfl

/-- Where the list has no tag `b`, nothing is emptied. -/
theorem signatureTag?_eq_none_of_ofParts {parts : List (List Char)}
    (h : "b" ∉ (Tags.ofParts parts).map (·.1)) : ∀ part ∈ parts, signatureTag? part = none := by
  intro part hpart
  rw [Option.eq_none_iff_forall_not_mem]
  intro emptied hemptied
  obtain ⟨value, hvalue⟩ := TagPlace.tag?_of_signatureTag? hemptied
  have hmem : ("b", value) ∈ Tags.ofParts parts := List.mem_filterMap.mpr ⟨part, hpart, hvalue⟩
  exact h (List.mem_map_of_mem hmem)

/-- **The parts of a text around a tag `b`**: before and after it they have their semicolons, and
none of them is another tag of this name. -/
structure TagPlace.Between (p : TagPlace) (cs : List Char) (front back : List (List Char)) : Prop
    extends p.IsTag where
  parts : pieces (· == ';') cs = front ++ p.part :: back
  before : p.before = front.flatMap (· ++ [';'])
  after : p.after = back.flatMap (';' :: ·)
  front_not : "b" ∉ (Tags.ofParts front).map (·.1)
  back_not : "b" ∉ (Tags.ofParts back).map (·.1)

/-- **A list with a tag `b`** is read from a text with parts around it. -/
theorem exists_between {cs : List Char} {t : Tags} (h : Tags.ofChars cs = .ok t)
    (hb : t.contains "b" = true) :
    ∃ p : TagPlace, ∃ front back, p.Between cs front back := by
  obtain ⟨-, rfl, hnodup⟩ := Tags.ofChars_eq_ok_iff.mp h
  obtain ⟨⟨name, value⟩, hmem, hname⟩ := List.mem_map.mp (Tags.contains_iff.mp hb)
  obtain rfl : name = "b" := hname
  obtain ⟨part, hpart, htag⟩ := List.mem_filterMap.mp hmem
  obtain ⟨front, back, hparts⟩ := List.append_of_mem hpart
  obtain ⟨p, hp, rfl, hbefore, hafter⟩ := TagPlace.exists_isTag htag
    (front.flatMap (· ++ [';'])) (back.flatMap (';' :: ·))
  rw [hparts, Tags.ofParts_append_cons htag, List.map_append, List.map_cons, List.nodup_append,
    List.nodup_cons] at hnodup
  exact ⟨p, front, back, hp, hparts, hbefore, hafter,
    fun hb => hnodup.2.2 _ hb _ List.mem_cons_self rfl, hnodup.2.1.1⟩

namespace TagPlace.Between

variable {p : TagPlace} {cs : List Char} {front back : List (List Char)} {t : Tags}

theorem no_semicolon (h : p.Between cs front back) :
    ∀ part ∈ front ++ p.part :: back, ∀ c ∈ part, (c == ';') = false := by
  rw [← h.parts]
  exact fun part hpart c hc => (mem_of_mem_pieces hpart c hc).2

theorem text_eq (h : p.Between cs front back) : p.text = cs := by
  rw [← intercalate_pieces_self ';' cs, h.parts, intercalate_append_cons, text, h.before, h.after]

/-- The tag has its place in the text. -/
theorem isIn (h : p.Between cs front back) : p.IsIn cs := by
  refine ⟨h.toIsTag, h.text_eq, ?value, ?before, ?after⟩
  case value =>
    intro hmem
    have hpart : ';' ∈ p.part := by simp [part, hmem]
    exact absurd (h.no_semicolon p.part (by simp) ';' hpart) (by decide)
  case before =>
    rw [h.before]
    rcases List.eq_nil_or_concat front with rfl | ⟨front, last, rfl⟩
    · exact nofun
    · simp
  case after =>
    rw [h.after]
    cases back with
    | nil => exact nofun
    | cons next back => simp

/-- The parts that are put together again when the value is removed. -/
theorem intercalate_emptied (h : p.Between cs front back) :
    [';'].intercalate (front ++ p.emptied.part :: back) = p.emptied.text := by
  have hbefore : p.emptied.before = p.before := rfl
  have hafter : p.emptied.after = p.after := rfl
  rw [intercalate_append_cons, text, hbefore, hafter, h.before, h.after]

theorem pieces_emptied (h : p.Between cs front back) :
    pieces (· == ';') p.emptied.text = front ++ p.emptied.part :: back := by
  have hplain := h.no_semicolon
  rw [← h.intercalate_emptied]
  refine pieces_intercalate (by rfl) (by simp) ?_
  rw [List.forall_mem_append, List.forall_mem_cons] at hplain ⊢
  exact ⟨hplain.1, fun c hc => hplain.2.1 c (mem_part_of_mem_emptied hc), hplain.2.2⟩

theorem get?_eq (h : p.Between cs front back) (ht : Tags.ofChars cs = .ok t) :
    t.get? "b" = some (String.ofList (trim p.value)) := by
  obtain ⟨-, rfl, -⟩ := Tags.ofChars_eq_ok_iff.mp ht
  rw [h.parts, Tags.ofParts_append_cons (tag?_part h.toIsTag)]
  exact Tags.get?_append_cons h.front_not

/-- **Without the value** the text is read as the same list, with an empty tag. -/
theorem ofChars_emptied (h : p.Between cs front back) (ht : Tags.ofChars cs = .ok t) :
    Tags.ofChars p.emptied.text = .ok (t.withValue "b" "") := by
  obtain ⟨hparts, hlist, hnodup⟩ := Tags.ofChars_eq_ok_iff.mp ht
  rw [h.parts] at hparts hlist
  rw [Tags.ofParts_append_cons (tag?_part h.toIsTag)] at hlist
  have htag : Tags.tag? (trim p.emptied.part) = some ("b", "") := tag?_part h.emptied
  rw [Tags.ofChars_eq_ok_iff, h.pieces_emptied, Tags.ofParts_append_cons htag,
    Tags.map_fst_withValue]
  refine ⟨?_, ?_, hnodup⟩
  · rw [List.forall_mem_append, List.forall_mem_cons] at hparts ⊢
    exact ⟨hparts.1, Or.inr (by rw [htag]; rfl), hparts.2.2⟩
  · rw [hlist, Tags.withValue_append_cons h.front_not h.back_not]

/-- **The text that is signed** lacks the value if the sign follows the name at once; if not, there
is none. -/
theorem emptyFirst?_eq (h : p.Between cs front back) :
    emptyFirst? (pieces (· == ';') cs) =
      if p.gap = [] then some (front ++ p.emptied.part :: back) else none := by
  have hfront := signatureTag?_eq_none_of_ofParts h.front_not
  have htag := signatureTag?_part h.toIsTag
  rw [h.parts]
  by_cases hgap : p.gap = []
  · rw [if_pos hgap] at htag ⊢
    exact Tags.emptyFirst?_append_cons hfront htag back
  · rw [if_neg hgap] at htag ⊢
    refine emptyFirst?_eq_none ?_
    rw [List.forall_mem_append, List.forall_mem_cons]
    exact ⟨hfront, htag, signatureTag?_eq_none_of_ofParts h.back_not⟩

end TagPlace.Between

/-- **Without its signature** a text is still read as the same list, with an empty tag `b`. In every
text that is read as a list with a tag `b` this tag has a place; the text without the value there is
read as the list with an empty `b`, and it is the text that is signed if the sign `=` follows the
name at once. Blanks between the two, which the list may have, hide the tag. -/
theorem withoutSignature_of_ofText {s : String} {t : Tags} (h : Tags.ofText s = .ok t)
    (hb : t.contains "b" = true) :
    ∃ p : TagPlace, p.IsIn s.toList ∧ t.get? "b" = some (String.ofList (trim p.value)) ∧
      Tags.ofText (String.ofList p.emptied.text) = .ok (t.withValue "b" "") ∧
      withoutSignature s =
        if p.gap = [] then .ok (String.ofList p.emptied.text) else .error .noSignatureTag := by
  obtain ⟨p, front, back, hp⟩ := exists_between h hb
  refine ⟨p, hp.isIn, hp.get?_eq h, ?read, ?signed⟩
  case read =>
    rw [Tags.ofText, String.toList_ofList]
    exact hp.ofChars_emptied h
  case signed =>
    rw [withoutSignature, hp.emptyFirst?_eq]
    by_cases hgap : p.gap = []
    · rw [if_pos hgap, if_pos hgap]
      simp only [hp.intercalate_emptied]
    · rw [if_neg hgap, if_neg hgap]

theorem withoutSignature_of_ofText_folded :
    let s := "v=1; bh=b=AA; a=b\r\n\t; B= c2ln\r\n bmF0dXJl ; h=from"
    let t := [("v", "1"), ("bh", "b=AA"), ("a", "b"), ("b", "c2ln\r\n bmF0dXJl"), ("h", "from")]
    Tags.ofText s = .ok t ∧ Tags.contains t "b" = true ∧
      ∃ p : TagPlace, p.IsIn s.toList ∧ Tags.get? t "b" = some (String.ofList (trim p.value)) ∧
        Tags.ofText (String.ofList p.emptied.text) = .ok (Tags.withValue t "b" "") ∧
        withoutSignature s =
          if p.gap = [] then .ok (String.ofList p.emptied.text) else .error .noSignatureTag := by
  intro s t
  have hread : Tags.ofText s = .ok t := by decide +kernel
  have hb : Tags.contains t "b" = true := by decide
  exact ⟨hread, hb, withoutSignature_of_ofText hread hb⟩

/-- **A blank before the sign hides the tag** from what is signed, though not from the list. -/
theorem withoutSignature_of_gap :
    let s := "v=1; b =AA==; h=from"
    Tags.ofText s = .ok [("v", "1"), ("b", "AA=="), ("h", "from")] ∧
      withoutSignature s = .error .noSignatureTag := by
  decide +kernel

end MailScreen.Dkim
