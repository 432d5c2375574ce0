import MailScreen.Proofs.Dkim.Canonical
import MailScreen.Proofs.Text.Utf8

/-!
# One decomposition of the signed text

The text that is signed is nothing but canonical fields one after the other, and a name without a
field left leaves no trace in it. Still it shows which fields it was made of: how many of each name,
and the canonical form of each of them.

* `filter_signedFields`: a name that is listed `k` times takes the last `k` fields of that name, the
  last first.
* `sameUnder_of_fieldText_eq`: the canonical form of a field shows its canonical value.
* `headerBytes_decodes`: messages with the same signed text agree on all fields that were taken.
-/

namespace MailScreen.Dkim

open MailScreen.Text MailScreen.Mail

variable {h h' : Headers} {names : List String} {n : String} {form : Form} {f f' : Field}

/-! ## Which fields are taken -/

theorem IsSignedName.not_named {m : String} (hm : IsSignedName m) (hn : IsSignedName n)
    (hne : m ≠ n) (hf : f.named m = true) : f.named n = false := by
  by_cases hfn : f.named n = true
  · exact absurd (hm.eq_of_named hn hf hfn) hne
  · simpa using hfn

/-- **A name takes the fields that stand last**, from the bottom up, as often as it is listed. The
induction is on the list, behind names that have taken their fields. -/
theorem filter_signedFields (hn : IsSignedName n) (hnames : ∀ m ∈ names, IsSignedName m)
    (earlier : List String) : (signedFields h earlier names).filter (·.named n) =
      ((instances h n).drop (earlier.count n)).take (names.count n) := by
  induction names generalizing earlier with
  | nil => simp [signedFields]
  | cons m names ih =>
    obtain ⟨hm, hnames⟩ := List.forall_mem_cons.mp hnames
    rw [signedFields, List.filter_append, ih hnames]
    by_cases hmn : m = n
    · subst hmn
      have hkept : ∀ f ∈ ((instances h m)[earlier.count m]?).toList, f.named m = true :=
        fun f hf => (named_of_mem_instances (List.mem_of_getElem? (Option.mem_toList.mp hf))).2
      rw [List.filter_eq_self.mpr hkept, List.count_cons_self, List.count_cons_self]
      by_cases hlt : earlier.count m < (instances h m).length
      · rw [List.getElem?_eq_getElem hlt, List.drop_eq_getElem_cons hlt, List.take_succ_cons]
        rfl
      · rw [not_lt] at hlt
        rw [List.getElem?_eq_none hlt, List.drop_eq_nil_of_le hlt,
          List.drop_eq_nil_of_le (hlt.trans (Nat.le_succ _))]
        simp
    · have hother : ∀ f ∈ ((instances h m)[earlier.count m]?).toList, ¬ f.named n = true := by
        intro f hf
        have hf := named_of_mem_instances (List.mem_of_getElem? (Option.mem_toList.mp hf))
        simp [hm.not_named hn hmn hf.2]
      rw [List.filter_eq_nil_iff.mpr hother, List.count_cons_of_ne hmn, List.count_cons_of_ne hmn]
      rfl

/-- The fields of a name that are taken, in the order in which they are taken. -/
def takenFields (h : Headers) (names : List String) (n : String) : List Field :=
  (signedFields h [] names).filter (·.named n)

theorem takenFields_eq (hnames : ∀ m ∈ names, IsSignedName m) (hn : n ∈ names) :
    takenFields h names n = (instances h n).take (names.count n) := by
  rw [takenFields, filter_signedFields (hnames n hn) hnames, List.count_nil, List.drop_zero]

/-! ## What the canonical form of a field shows -/

/-- Fields that are the same as far as a canonical form goes: the same field, or the same relaxed
value under the same name. -/
def SameUnder : Form → Field → Field → Prop
  | .simple, f, f' => f = f'
  | .relaxed, f, f' => lowerAscii f.name.toList = lowerAscii f'.name.toList ∧
      relaxedValue f.value.toList = relaxedValue f'.value.toList

theorem sameUnder_of_fieldText_eq (hf : f.WellRead) (hf' : f'.WellRead)
    (hname : lowerAscii f.name.toList = lowerAscii f'.name.toList)
    (heq : fieldText form f.name.toList f.value.toList =
      fieldText form f'.name.toList f'.value.toList) : SameUnder form f f' := by
  cases form with
  | simple =>
    have hlength : f.name.toList.length = f'.name.toList.length := by
      simpa [lowerAscii] using congrArg List.length hname
    simp only [fieldText, List.append_assoc] at heq
    obtain ⟨hnames, hvalues⟩ := List.append_inj heq hlength
    obtain ⟨name, value⟩ := f
    obtain ⟨name', value'⟩ := f'
    obtain rfl : name = name' := String.toList_inj.mp hnames
    obtain rfl : value = value' := String.toList_inj.mp (List.append_cancel_left hvalues)
    rfl
  | relaxed =>
    rw [fieldText, fieldText, trim_eq_self hf.trimmed, trim_eq_self hf'.trimmed, hname] at heq
    exact ⟨hname, (List.cons.inj (List.append_cancel_left heq)).2⟩

/-! ## The signed text -/

/-- Of the canonical forms of the signed fields, those of a name belong to the fields that it
took. -/
theorem filter_signedTexts (hn : IsSignedName n) (hh : ∀ f ∈ h.fields, f.WellRead) :
    (signedTexts form h names).filter (fun t => textName? t == some n.toList) =
      (takenFields h names n).map fun f => fieldText form f.name.toList f.value.toList := by
  rw [signedTexts, List.filter_map, takenFields]
  refine congrArg (List.map _) (List.filter_congr fun f hf => ?_)
  have hread := hh f (mem_of_mem_signedFields hf).1
  rw [Function.comp_apply, textName?_fieldText form hread, Bool.eq_iff_iff, beq_iff_eq,
    Option.some_inj, Field.named, eqIgnoreCase_iff, hn.lower]

theorem named_of_mem_takenFields (hf : f ∈ takenFields h names n) :
    f ∈ h.fields ∧ f.named n = true :=
  ⟨(mem_of_mem_signedFields (List.mem_of_mem_filter hf)).1, (List.mem_filter.mp hf).2⟩

/-- **The signed text has one decomposition.** If two messages have the same one, then for each name
of the list they have the same number of fields that are taken, which are those that stand last,
from the bottom up; and of these each has the canonical form, and so the canonical value, of the one
in the same place. So a field more of a name that is listed more often than it occurs changes the
text. -/
theorem headerBytes_decodes (form : Form) (raw raw' : List UInt8) {names : List String}
    (hnames : ∀ n ∈ names, IsSignedName n) (signature : String) :
    let h := (Message.ofBytes raw).headers
    let h' := (Message.ofBytes raw').headers
    let text (f : Field) := fieldText form f.name.toList f.value.toList
    (headerBytes form h names signature = headerBytes form h' names signature → ∀ n ∈ names,
      takenFields h names n = (instances h n).take (names.count n) ∧
      takenFields h' names n = (instances h' n).take (names.count n) ∧
      min (names.count n) (instances h n).length = min (names.count n) (instances h' n).length ∧
      (takenFields h names n).map text = (takenFields h' names n).map text ∧
      ∀ (i : Nat) f f', (takenFields h names n)[i]? = some f →
        (takenFields h' names n)[i]? = some f' → SameUnder form f f') ∧
    (∀ n ∈ names, (instances h n).length < names.count n →
      (instances h n).length < (instances h' n).length →
        headerBytes form h names signature ≠ headerBytes form h' names signature) := by
  intro h h' text
  have hread : ∀ f ∈ h.fields, f.WellRead := Message.ofBytes_wellRead raw
  have hread' : ∀ f ∈ h'.fields, f.WellRead := Message.ofBytes_wellRead raw'
  have hdecoded (heq : headerBytes form h names signature = headerBytes form h' names signature)
      (n : String) (hn : n ∈ names) :
      (takenFields h names n).map text = (takenFields h' names n).map text := by
    rw [← filter_signedTexts (hnames n hn) hread,
      ← filter_signedTexts (hnames n hn) hread',
      signedTexts_eq_of_headerBytes_eq form hnames hread hread' heq]
  have hcount (heq : headerBytes form h names signature = headerBytes form h' names signature)
      (n : String) (hn : n ∈ names) :
      min (names.count n) (instances h n).length = min (names.count n) (instances h' n).length := by
    simpa [takenFields_eq hnames hn] using congrArg List.length (hdecoded heq n hn)
  refine ⟨fun heq n hn => ⟨takenFields_eq hnames hn, takenFields_eq hnames hn, hcount heq n hn,
    hdecoded heq n hn, fun i f f' hf hf' => ?_⟩, fun n hn hlisted hmore heq => ?_⟩
  · have hmem := named_of_mem_takenFields (List.mem_of_getElem? hf)
    have hmem' := named_of_mem_takenFields (List.mem_of_getElem? hf')
    have hname : lowerAscii f.name.toList = lowerAscii f'.name.toList :=
      (eqIgnoreCase_iff.mp hmem.2).trans (eqIgnoreCase_iff.mp hmem'.2).symm
    have htext : text f = text f' := by
      simpa [hf, hf'] using congrArg (·[i]?) (hdecoded heq n hn)
    exact sameUnder_of_fieldText_eq (hread f hmem.1) (hread' f' hmem'.1) hname htext
  · have := hcount heq n hn
    omega

/-- A message with a field in front that is not signed and with other blanks, and one with a `From`
field more where two are listed. -/
theorem headerBytes_decodes_from :
    let raw := Utf8.encode "From: a\r\nX: 1\r\n 2\r\n\r\n".toList
    let raw' := Utf8.encode "X: 0\r\nFROM:  a \r\nx: 1 2\r\n\r\n".toList
    let raw'' := Utf8.encode "From: b\r\nFrom: a\r\nX: 1 2\r\n\r\n".toList
    let headers (raw : List UInt8) := (Message.ofBytes raw).headers
    let names := ["from", "x", "from"]
    let text (f : Field) := fieldText .relaxed f.name.toList f.value.toList
    let signed (raw : List UInt8) := headerBytes .relaxed (headers raw) names "v=1"
    signed raw = signed raw' ∧
      (takenFields (headers raw) names "x").map text =
        (takenFields (headers raw') names "x").map text ∧
      (instances (headers raw) "from").length = 1 ∧ (instances (headers raw'') "from").length = 2 ∧
      signed raw ≠ signed raw'' := by
  intro raw raw' raw'' headers names text signed
  have hnames : ∀ n ∈ names, IsSignedName n :=
    List.forall_mem_cons.mpr ⟨⟨by decide, by decide⟩, List.forall_mem_cons.mpr
      ⟨⟨by decide, by decide⟩, List.forall_mem_cons.mpr ⟨⟨by decide, by decide⟩, nofun⟩⟩⟩
  have hsigned : signed raw = signed raw' := by decide +kernel
  have hone : (instances (headers raw) "from").length = 1 := by decide +kernel
  have htwo : (instances (headers raw'') "from").length = 2 := by decide +kernel
  obtain ⟨hdecoded, -⟩ := headerBytes_decodes .relaxed raw raw' hnames "v=1"
  obtain ⟨-, hmore⟩ := headerBytes_decodes .relaxed raw raw'' hnames "v=1"
  obtain ⟨-, -, -, htexts, -⟩ := hdecoded hsigned "x" (by decide)
  have hcount : names.count "from" = 2 := by decide
  exact ⟨hsigned, htexts, hone, htwo,
    hmore "from" (by decide) (by rw [hcount, hone]; decide) (by rw [hone, htwo]; decide)⟩

end MailScreen.Dkim
