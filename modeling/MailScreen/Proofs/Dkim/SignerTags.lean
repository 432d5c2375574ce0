import MailScreen.Dkim.Sign
import MailScreen.Dkim.Verify
import MailScreen.Proofs.Dkim.Tags
import MailScreen.Proofs.Mail.Message
import MailScreen.Proofs.Text.Ascii
import MailScreen.Proofs.Text.Base64

/-!
# The tags that a signer writes

* `SigningOptions.Plain` says of the options of a signer what makes its signatures readable: no
  blank and no separator in domain and selector, no separator in a name, `from` among the names and
  the signature's own name not among them.
* `ofText_sign`, `withoutSignature_sign`: the value that a signer makes is read as the tags it
  means, and without its signature it is the value that was signed.
* `signedNames_intercalate`: the list of signed fields is read back.
* `ofText_record`: so is the text that publishes a key.
-/

namespace MailScreen.Dkim

open MailScreen.Text

/-- Options with which signatures can be read back. -/
structure SigningOptions.Plain (o : SigningOptions) : Prop where
  domain_ne : o.domain ≠ ""
  domain : ∀ c ∈ o.domain.toList, isBlank c = false ∧ c ≠ ';'
  selector_ne : o.selector ≠ ""
  selector : ∀ c ∈ o.selector.toList, isBlank c = false ∧ c ≠ ';'
  signs_from : "from" ∈ o.names
  names_ne : ∀ n ∈ o.names, n ≠ ""
  names : ∀ n ∈ o.names, ∀ c ∈ n.toList, c ≠ ':' ∧ c ≠ ';'
  not_itself : ∀ n ∈ o.names, eqIgnoreCase n.toList "dkim-signature".toList = false

/-! ## The names of the signed fields -/

/-- A name that survives a list of signed fields. -/
structure IsListedName (name : String) : Prop where
  ne_nil : name.toList ≠ []
  trimmed : Trimmed name.toList
  lower : lowerAscii name.toList = name.toList
  plain : ∀ c ∈ name.toList, c ≠ ':' ∧ c ≠ ';' ∧ c ≠ '\n'

namespace Signer

variable {s : Signer} {h : Mail.Headers}

/-- **The covered names can be listed**: each is the name of a field that was read. -/
theorem isListedName_of_mem_coveredNames (ho : s.options.Plain) (hh : ∀ f ∈ h.fields, f.WellRead) :
    ∀ n ∈ s.coveredNames h, IsListedName n := by
  intro n hn
  obtain ⟨name, hname, rfl⟩ := List.mem_map.mp hn
  obtain ⟨hmem, hcont⟩ := List.mem_filter.mp hname
  have hsome : h.getAll name ≠ [] := by
    rwa [Mail.Headers.contains, Mail.Headers.get?, List.getLast?_isSome] at hcont
  obtain ⟨f, hf, hnamed⟩ : ∃ f ∈ h.fields, f.named name = true := by
    simpa [Mail.Headers.getAll] using hsome
  have hlow : lowerAscii f.name.toList = lowerAscii name.toList := eqIgnoreCase_iff.mp hnamed
  rw [lowerAsciiString]
  constructor
  · rw [String.toList_ofList, lowerAscii, Ne, List.map_eq_nil_iff]
    exact fun e => ho.names_ne name hmem (String.toList_inj.mp e)
  · rw [String.toList_ofList, ← hlow, trimmed_lowerAscii_iff]
    exact (hh f hf).trimmed
  · rw [String.toList_ofList, lowerAscii_lowerAscii]
  · rw [String.toList_ofList]
    intro c hc
    refine ⟨?_, ?_, ?_⟩
    · rintro rfl
      exact (ho.names name hmem ':' (mem_of_mem_lowerAscii (by decide) hc)).1 rfl
    · rintro rfl
      exact (ho.names name hmem ';' (mem_of_mem_lowerAscii (by decide) hc)).2 rfl
    · rintro rfl
      rw [← hlow] at hc
      exact ((hh f hf).plain '\n' (mem_of_mem_lowerAscii (by decide) hc)).2 rfl

theorem from_mem_coveredNames (ho : s.options.Plain) (hfrom : h.contains "from" = true) :
    "from" ∈ s.coveredNames h := by
  refine List.mem_map.mpr ⟨"from", List.mem_filter.mpr ⟨ho.signs_from, hfrom⟩, ?_⟩
  decide

end Signer

theorem toList_intercalate_colon (names : List String) :
    (":".intercalate names).toList = [':'].intercalate (names.map String.toList) := by
  rw [String.toList_intercalate]
  rfl

/-- A list of names that can be listed can be the value of a tag. -/
theorem isValue_intercalate {names : List String} (h : ∀ n ∈ names, IsListedName n) :
    Tags.IsValue (":".intercalate names).toList := by
  rw [toList_intercalate_colon]
  induction names with
  | nil => exact Tags.isValue_nil
  | cons n names ih =>
    have hn := h n List.mem_cons_self
    have hrest := ih fun m hm => h m (List.mem_cons_of_mem n hm)
    cases names with
    | nil =>
      rw [List.map_cons, List.map_nil, List.intercalate_singleton]
      exact ⟨hn.trimmed, fun c hc => (hn.plain c hc).2⟩
    | cons m names =>
      rw [List.map_cons, List.map_cons, List.intercalate_cons_cons, ← List.map_cons]
      obtain ⟨c, cs, hc⟩ := List.exists_cons_of_ne_nil hn.ne_nil
      have hm := (h m (by simp)).ne_nil
      have hne : [':'].intercalate ((m :: names).map String.toList) ≠ [] := by
        cases names with
        | nil => simpa using hm
        | cons k names => simp
      refine ⟨⟨fun d hd => ?_, fun d hd => ?_⟩, fun d hd => ?_⟩
      · apply hn.trimmed.head
        rw [hc] at hd ⊢
        exact hd
      · apply hrest.trimmed.last
        rwa [List.getLast?_append, Option.or_of_isSome (List.getLast?_isSome.mpr hne)] at hd
      · simp only [List.mem_append, List.mem_singleton] at hd
        rcases hd with (hd | rfl) | hd
        · exact (hn.plain d hd).2
        · decide
        · exact hrest.plain d hd

/-- **A list of names is read back.** -/
theorem signedNames_intercalate {names : List String} (hne : names ≠ [])
    (h : ∀ n ∈ names, IsListedName n) : signedNames (":".intercalate names) = names := by
  have hpieces : pieces (· == ':') ([':'].intercalate (names.map String.toList)) =
      names.map String.toList := by
    apply pieces_intercalate (by rfl) (by simpa using hne)
    intro part hpart c hc
    obtain ⟨n, hn, rfl⟩ := List.mem_map.mp hpart
    rw [beq_eq_false_iff_ne]
    exact ((h n hn).plain c hc).1
  have hread : (names.map String.toList).map (fun cs => String.ofList (lowerAscii (trim cs))) =
      names := by
    rw [List.map_map]
    conv => rhs; rw [← List.map_id names]
    apply List.map_congr_left
    intro n hn
    have hn := h n hn
    rw [Function.comp_apply, trim_eq_self hn.trimmed, hn.lower, String.ofList_toList, id]
  rw [signedNames, toList_intercalate_colon, hpieces, hread, List.filter_eq_self]
  intro n hn
  simpa [String.toList_eq_nil_iff] using (h n hn).ne_nil

/-! ## The signature -/

theorem isValue_encode (bytes : List UInt8) : Tags.IsValue (Base64.encode bytes).toList := by
  rw [Base64.encode, String.toList_ofList]
  apply Tags.isValue_of_plain
  intro c hc
  have hcode := Base64.isCodeChar_of_mem_symbols bytes c hc
  exact ⟨Base64.isBlank_of_isCodeChar hcode, Base64.ne_semicolon_of_isCodeChar hcode⟩

theorem isValue_toString (n : Int) : Tags.IsValue (toString n).toList := by
  apply Tags.isValue_of_plain
  intro c hc
  rcases isDigit_of_mem_toString n c hc with rfl | hd
  · decide
  · have hrange : 48 ≤ c.toNat ∧ c.toNat ≤ 57 := by
      simpa [Char.isDigit, UInt32.le_iff_toNat_le] using hd
    constructor
    · simp only [isBlank, Bool.or_eq_false_iff, Bool.and_eq_false_iff, decide_eq_false_iff_not,
        beq_eq_false_iff_ne]
      omega
    · rintro rfl
      revert hd
      decide

theorem isValue_algorithm (a : Algorithm) : Tags.IsValue a.name.toList := by
  apply Tags.isValue_of_plain
  cases a <;> exact forall_mem_of_all (by decide)

theorem isValue_keyType (a : Algorithm) : Tags.IsValue a.keyType.toList := by
  apply Tags.isValue_of_plain
  cases a <;> exact forall_mem_of_all (by decide)

theorem isValue_forms (header body : Form) :
    Tags.IsValue (header.name ++ "/" ++ body.name).toList := by
  apply Tags.isValue_of_plain
  cases header <;> cases body <;> exact forall_mem_of_all (by decide)

namespace Signer

variable (s : Signer) (hash : List UInt8 → List UInt8) (now : Int) (m : Mail.Message)

/-- The tags before the signature itself. -/
def leadingTags : Tags :=
  [("v", "1"), ("a", s.options.algorithm.name),
    ("c", s.options.headerForm.name ++ "/" ++ s.options.bodyForm.name), ("d", s.options.domain),
    ("s", s.options.selector), ("t", toString now),
    ("h", ":".intercalate (s.coveredNames m.headers)),
    ("bh", Base64.encode (hash (body s.options.bodyForm m.body)))]

/-- The value with a signature, as it is written. -/
theorem unsignedValue_append (b : String) :
    s.unsignedValue hash now m ++ b =
      String.ofList (Tags.toChars (s.leadingTags hash now m ++ [("b", b)])) := by
  rw [← String.toList_inj, String.toList_ofList]
  unfold unsignedValue leadingTags Tags.toChars
  simp only [String.toList_append, List.cons_append, List.nil_append, List.map_cons, List.map_nil,
    Tags.tagChars, List.intercalate_cons_cons, List.intercalate_singleton, List.append_assoc,
    String.reduceToList]

/-- The signature of a message, as bytes. -/
def signatureBytes : List UInt8 :=
  s.key.sign (headerBytes s.options.headerForm m.headers (s.coveredNames m.headers)
    (s.unsignedValue hash now m))

theorem sign_eq : s.sign hash now m =
    String.ofList (Tags.toChars (s.leadingTags hash now m ++
      [("b", Base64.encode (s.signatureBytes hash now m))])) := by
  rw [← unsignedValue_append]
  rfl

theorem unsignedValue_eq : s.unsignedValue hash now m =
    String.ofList (Tags.toChars (s.leadingTags hash now m ++ [("b", "")])) := by
  rw [← unsignedValue_append, String.append_empty]

variable {s m}

/-- The tags of a signature can be written. -/
theorem wellFormed_tags (ho : s.options.Plain) (hm : ∀ f ∈ m.headers.fields, f.WellRead)
    {b : String} (hb : Tags.IsValue b.toList) :
    Tags.WellFormed (s.leadingTags hash now m ++ [("b", b)]) where
  names := by
    have hname : ∀ name ∈ ["v", "a", "c", "d", "s", "t", "h", "bh", "b"],
        Tags.IsName name.toList := by
      decide
    exact fun t ht => hname t.1 (List.mem_map_of_mem (f := Prod.fst) ht)
  values := by
    intro t ht
    simp only [leadingTags, List.cons_append, List.nil_append, List.mem_cons, List.not_mem_nil,
      or_false] at ht
    rcases ht with rfl | rfl | rfl | rfl | rfl | rfl | rfl | rfl | rfl
    · exact Tags.isValue_of_plain (forall_mem_of_all (by decide))
    · exact isValue_algorithm s.options.algorithm
    · exact isValue_forms s.options.headerForm s.options.bodyForm
    · exact Tags.isValue_of_plain ho.domain
    · exact Tags.isValue_of_plain ho.selector
    · exact isValue_toString now
    · exact isValue_intercalate (isListedName_of_mem_coveredNames ho hm)
    · exact isValue_encode _
    · exact hb
  distinct := by
    simp only [leadingTags, List.cons_append, List.nil_append, List.map_cons, List.map_nil]
    decide

/-- **The value that a signer makes is read as its tags.** -/
theorem ofText_sign (ho : s.options.Plain) (hm : ∀ f ∈ m.headers.fields, f.WellRead) :
    Tags.ofText (s.sign hash now m) = .ok (s.leadingTags hash now m ++
      [("b", Base64.encode (s.signatureBytes hash now m))]) := by
  rw [Tags.ofText, sign_eq, String.toList_ofList]
  exact Tags.ofChars_toChars (wellFormed_tags hash now ho hm (isValue_encode _))

/-- **Without its signature** the value is the one that was signed. -/
theorem withoutSignature_sign (ho : s.options.Plain) (hm : ∀ f ∈ m.headers.fields, f.WellRead) :
    withoutSignature (s.sign hash now m) = .ok (s.unsignedValue hash now m) := by
  rw [sign_eq, unsignedValue_eq]
  exact Tags.withoutSignature_toChars (List.cons_ne_nil _ _)
    (wellFormed_tags hash now ho hm (isValue_encode _))

/-- A value that a signer makes stands on one line. -/
theorem no_lf_sign (ho : s.options.Plain) (hm : ∀ f ∈ m.headers.fields, f.WellRead) :
    '\n' ∉ (s.sign hash now m).toList := by
  rw [sign_eq, String.toList_ofList]
  have hwf := wellFormed_tags hash now ho hm (isValue_encode (s.signatureBytes hash now m))
  exact Tags.no_lf_toChars fun t ht => ⟨hwf.names t ht, hwf.values t ht⟩

/-- **The text that publishes a key is read back.** -/
theorem ofText_record (k : SigningKey) :
    Tags.ofText k.record =
      .ok [("v", "DKIM1"), ("k", k.algorithm.keyType), ("p", k.published)] := by
  have hrecord : k.record.toList =
      Tags.toChars [("v", "DKIM1"), ("k", k.algorithm.keyType), ("p", k.published)] := by
    unfold SigningKey.record Tags.toChars
    simp only [String.toList_append, List.cons_append, List.nil_append, List.map_cons,
      List.map_nil, Tags.tagChars, List.intercalate_cons_cons, List.intercalate_singleton,
      List.append_assoc, String.reduceToList]
  rw [Tags.ofText, hrecord]
  apply Tags.ofChars_toChars
  have hname : ∀ name ∈ ["v", "k", "p"], Tags.IsName name.toList := by decide
  refine ⟨fun t ht => ?_, fun t ht => ?_, by simp only [List.map_cons, List.map_nil]; decide⟩
  · exact hname t.1 (List.mem_map_of_mem (f := Prod.fst) ht)
  · simp only [List.mem_cons, List.not_mem_nil, or_false] at ht
    rcases ht with rfl | rfl | rfl
    · exact Tags.isValue_of_plain (forall_mem_of_all (by decide))
    · exact isValue_keyType k.algorithm
    · exact isValue_encode k.publicBytes

end Signer

end MailScreen.Dkim
