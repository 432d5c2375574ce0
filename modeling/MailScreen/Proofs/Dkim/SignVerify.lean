import MailScreen.Dns.Zone
import MailScreen.Proofs.Dkim.SignerTags
import MailScreen.Proofs.Dkim.Verify

/-!
# Signatures are accepted

A message that was signed is checked by other code than the code that signed it: the message is read
again with one field more, the tags are read out of that field, and the signed text is made anew.

* `SigningKey.Honest` says of a key what is asked of its scheme: the published key is read, and it
  accepts what the key signed.
* `ofTags_sign`, `keyOf_record`, `judge_sign`: the signature is read as it was meant, the key is
  found, and the signature fits the message that carries it.
* `verify_sign`: a message with a signature in front is valid for any forms, any fields and any
  older signatures, as long as no line before its first field continues a field.
* `not_valid_before_stray_line`: that condition is needed. A line without a colon is no field, and
  does not end the field before it; a continuation after it goes to the signature.
-/

namespace MailScreen.Dkim

open MailScreen.Text MailScreen.Mail

/-- A key that is read as it was published, and accepts what it signed. -/
structure SigningKey.Honest (k : SigningKey) (scheme : Scheme) : Prop where
  reads : ∃ accepts, scheme.readKey k.algorithm k.published = some accepts ∧
    ∀ data, accepts data (k.sign data) = true
  key_ne : k.publicBytes ≠ []
  signature_ne : ∀ data, k.sign data ≠ []

/-! ## A scheme that counts -/

/-- The number of bytes, as a byte. -/
def lengthByte (data : List UInt8) : List UInt8 :=
  [UInt8.ofNat data.length]

/-- The scheme in which the hash of data and its signature are the number of its bytes. -/
def Scheme.counting : Scheme where
  hash := lengthByte
  readKey _ _ := some fun data signature => signature == lengthByte data

/-- The key of that scheme. -/
def SigningKey.counting : SigningKey where
  algorithm := .ed25519
  publicBytes := [1]
  sign := lengthByte

theorem SigningKey.honest_counting : SigningKey.counting.Honest Scheme.counting where
  reads := ⟨_, rfl, fun data => beq_self_eq_true (lengthByte data)⟩
  key_ne := List.cons_ne_nil _ _
  signature_ne _ := List.cons_ne_nil _ _

/-- A signer with that key. -/
def Signer.counting : Signer where
  options := ⟨"b.c", "s", .ed25519, .relaxed, .relaxed, ["from", "to"]⟩
  key := .counting
  fits := rfl

theorem Signer.plain_counting : Signer.counting.options.Plain where
  domain_ne := by decide
  domain := forall_mem_of_all (by decide)
  selector_ne := by decide
  selector := forall_mem_of_all (by decide)
  signs_from := by decide
  names_ne := by decide
  names n hn := by
    obtain rfl | rfl : n = "from" ∨ n = "to" := by simpa [Signer.counting] using hn
    · exact forall_mem_of_all (by decide)
    · exact forall_mem_of_all (by decide)
  not_itself := by decide

/-- The zone that publishes the key, and nothing else. -/
def Signer.zone (s : Signer) : Dns.Zone :=
  Dns.Zone.empty.addText s.recordName s.record

/-! ## The fields that are signed -/

/-- A field of another name in front changes none of the signed fields. -/
theorem signedFields_cons {f : Field} {names : List String} (h : ∀ n ∈ names, f.named n = false)
    (fields : List Field) (earlier : List String) :
    signedFields ⟨f :: fields⟩ earlier names = signedFields ⟨fields⟩ earlier names := by
  induction names generalizing earlier with
  | nil => rfl
  | cons n names ih =>
    have hinst : instances ⟨f :: fields⟩ n = instances ⟨fields⟩ n := by
      rw [instances, instances, List.filter_cons, if_neg (by simp [h n List.mem_cons_self])]
    rw [signedFields, signedFields, hinst, ih fun m hm => h m (List.mem_cons_of_mem n hm)]

/-- The name with which the field is written is the one by which it is found. -/
theorem lowerAscii_fieldName :
    lowerAscii "DKIM-Signature".toList = lowerAscii "dkim-signature".toList := by
  decide

/-- A message that carries a value as its newest signature. -/
def withSignature (m : Message) (value : String) : Message :=
  ⟨⟨⟨"DKIM-Signature", value⟩ :: m.headers.fields⟩, m.body⟩

theorem getAll_withSignature (m : Message) (value : String) :
    (withSignature m value).headers.getAll "dkim-signature" =
      value :: m.headers.getAll "dkim-signature" := by
  have hnamed : Field.named ⟨"DKIM-Signature", value⟩ "dkim-signature" = true :=
    eqIgnoreCase_iff.mpr lowerAscii_fieldName
  rw [withSignature, Headers.getAll, List.filter_cons, if_pos hnamed, List.map_cons]
  rfl

namespace Signer

variable {s : Signer} (hash : List UInt8 → List UInt8) (now : Int) {m : Message}

/-- No signature covers signatures. -/
theorem not_named_of_mem_coveredNames (ho : s.options.Plain) (value : String) :
    ∀ n ∈ s.coveredNames m.headers, Field.named ⟨"DKIM-Signature", value⟩ n = false := by
  intro n hn
  obtain ⟨name, hname, rfl⟩ := List.mem_map.mp hn
  have hother := ho.not_itself name (List.mem_filter.mp hname).1
  rw [← Bool.not_eq_true, eqIgnoreCase_iff] at hother
  have hname : lowerAscii (lowerAsciiString name).toList = lowerAscii name.toList := by
    rw [lowerAsciiString, String.toList_ofList, lowerAscii_lowerAscii]
  rw [← Bool.not_eq_true, Field.named, eqIgnoreCase_iff, lowerAscii_fieldName, hname]
  exact fun e => hother e.symm

/-- The signed text is the same in the message that carries the signature. -/
theorem headerBytes_withSignature (ho : s.options.Plain) (form : Form) (value text : String) :
    headerBytes form (withSignature m value).headers (s.coveredNames m.headers) text =
      headerBytes form m.headers (s.coveredNames m.headers) text := by
  rw [headerBytes, headerBytes, headerText, headerText, withSignature,
    signedFields_cons (not_named_of_mem_coveredNames ho value)]

/-! ## What the signature says -/

/-- The signature that a signer means. -/
def signature (s : Signer) (hash : List UInt8 → List UInt8) (now : Int) (m : Message) :
    Signature where
  domain := s.options.domain
  selector := s.options.selector
  algorithm := s.options.algorithm
  names := s.coveredNames m.headers
  bodyHash := hash (body s.options.bodyForm m.body)
  bytes := s.signatureBytes hash now m
  headerForm := s.options.headerForm
  bodyForm := s.options.bodyForm
  length := none

theorem ofText?_name (a : Algorithm) : Algorithm.ofText? a.name = some a := by
  cases a <;> decide

theorem pair?_names (header body : Form) :
    Form.pair? (header.name ++ "/" ++ body.name) = some (header, body) := by
  cases header <;> cases body <;> decide

/-- **The signature is read as it was meant**, at any time. -/
theorem ofTags_sign (ho : s.options.Plain) (hm : ∀ f ∈ m.headers.fields, f.WellRead)
    (hfrom : m.headers.contains "from" = true) (hne : s.signatureBytes hash now m ≠ [])
    (now' : Int) :
    Signature.ofTags now' (s.leadingTags hash now m ++
      [("b", Base64.encode (s.signatureBytes hash now m))]) = .ok (s.signature hash now m) := by
  have hcovered : "from" ∈ s.coveredNames m.headers := from_mem_coveredNames ho hfrom
  have hnames : signedNames (":".intercalate (s.coveredNames m.headers)) =
      s.coveredNames m.headers :=
    signedNames_intercalate (List.ne_nil_of_mem hcovered) (isListedName_of_mem_coveredNames ho hm)
  unfold Signature.ofTags leadingTags
  simp [Tags.get?, List.lookup_cons, required, demand, checkExpiry, ofText?_name, pair?_names,
    hnames, hcovered, Base64.decode?_encode, hne, signature, bind, Except.bind, pure, Except.pure]

/-- **The key is found** in the text that publishes it. -/
theorem keyOf_record {scheme : Scheme} {accepts : Acceptance}
    (hreads : scheme.readKey s.key.algorithm s.key.published = some accepts)
    (hkey : s.key.publicBytes ≠ []) :
    keyOf scheme s.options.algorithm [s.record] = .ok accepts := by
  have hpublished : s.key.published ≠ "" := by
    rw [SigningKey.published, Base64.encode, Ne, String.ofList_eq_empty_iff]
    exact fun e => hkey ((Base64.symbols_eq_nil_iff _).mp e)
  have htype : lowerAsciiString s.key.algorithm.keyType = s.key.algorithm.keyType := by
    cases s.key.algorithm <;> decide
  have htags : keyTags? [s.record] =
      some [("v", "DKIM1"), ("k", s.key.algorithm.keyType), ("p", s.key.published)] := by
    simp [keyTags?, record, ofText_record, Except.toOption, Tags.contains, Tags.get?,
      List.lookup_cons]
  unfold keyOf
  simp [htags, Tags.get?, List.lookup_cons, required, demand, htype, hpublished, hreads, s.fits,
    bind, Except.bind]

/-- **The signature fits the message that carries it.** -/
theorem judge_sign {scheme : Scheme} {accepts : Acceptance} (ho : s.options.Plain)
    (hm : ∀ f ∈ m.headers.fields, f.WellRead)
    (haccepts : ∀ data, accepts data (s.key.sign data) = true) :
    (s.signature scheme.hash now m).judge scheme accepts
      (withSignature m (s.sign scheme.hash now m)) (s.sign scheme.hash now m) = .pass := by
  have hdata : headerBytes s.options.headerForm (withSignature m (s.sign scheme.hash now m)).headers
      (s.coveredNames m.headers) (s.unsignedValue scheme.hash now m) =
      headerBytes s.options.headerForm m.headers (s.coveredNames m.headers)
        (s.unsignedValue scheme.hash now m) := headerBytes_withSignature ho _ _ _
  have haccepted : accepts (headerBytes s.options.headerForm m.headers (s.coveredNames m.headers)
      (s.unsignedValue scheme.hash now m)) (s.signatureBytes scheme.hash now m) = true :=
    haccepts _
  unfold Signature.judge signature
  simp only [signedBody, withoutSignature_sign scheme.hash now ho hm, hdata, haccepted, if_true]
  exact if_neg (not_not_intro rfl)

/-! ## Checking it -/

variable {scheme : Scheme} {ctx : Dns.Context} {r : Dns.Resolver} {session : Dns.Session}

/-- The check of the signature itself, on the message that carries it. -/
theorem verifyOne_sign (hk : s.key.Honest scheme) (ho : s.options.Plain)
    (hm : ∀ f ∈ m.headers.fields, f.WellRead) (hfrom : m.headers.contains "from" = true)
    (hrecord : (ctx.txt r s.recordName session).1 = .ok [s.record]) (now' : Int) :
    (verifyOne scheme ctx r now' (withSignature m (s.sign scheme.hash now m))
      (s.sign scheme.hash now m) session).1 =
      ⟨.pass, some (DomainName.normalize s.options.domain), some s.options.selector⟩ := by
  obtain ⟨accepts, hreads, haccepts⟩ := hk.reads
  have hname : keyName s.options.selector s.options.domain = s.recordName := rfl
  have htags : (verifyTags scheme ctx r now' (withSignature m (s.sign scheme.hash now m))
      (s.sign scheme.hash now m) (s.leadingTags scheme.hash now m ++
        [("b", Base64.encode (s.signatureBytes scheme.hash now m))]) session).1 = .pass := by
    have hkey : keyOfAnswer scheme (s.signature scheme.hash now m).algorithm
        (ctx.txt r (keyName (s.signature scheme.hash now m).selector
          (s.signature scheme.hash now m).domain) session).1 = .ok accepts := by
      simp only [signature, hname, hrecord, keyOfAnswer, keyOf_record hreads hk.key_ne]
    rw [verifyTags_of_ok (ofTags_sign scheme.hash now ho hm hfrom (hk.signature_ne _) now') hkey]
    exact judge_sign now ho hm haccepts
  rw [verifyOne_of_ok (ofText_sign scheme.hash now ho hm), htags]
  rfl

end Signer

/-- **A signed message is valid.** The signature stands in front of the message, and the key is
published as the only text at its name. -/
theorem verify_sign (s : Signer) (scheme : Scheme) (ctx : Dns.Context) (r : Dns.Resolver)
    (now now' : Int) (session : Dns.Session) (raw : List UInt8) (hk : s.key.Honest scheme)
    (ho : s.options.Plain) (hfrom : (Message.ofBytes raw).headers.contains "from" = true)
    (hstray : Message.NoStrayFold (Message.headerLines raw))
    (hrecord : (ctx.txt r s.recordName session).1 = .ok [s.record]) :
    (verify scheme ctx r now' (Message.ofBytes (Utf8.encode (Message.fieldChars
      ⟨"DKIM-Signature", s.sign scheme.hash now (Message.ofBytes raw)⟩) ++ raw)) session).1 =
      ⟨.pass, some (DomainName.normalize s.options.domain), some s.options.selector⟩ := by
  have hm := Message.ofBytes_wellRead raw
  have hfields : (Message.ofBytes raw).headers.fields ≠ [] := by
    intro e
    simp [Headers.contains, Headers.get?, Headers.getAll, e] at hfrom
  have hname : Message.IsName "DKIM-Signature".toList :=
    ⟨by decide, trimmed_of_no_blank (forall_mem_of_all (by decide)), forall_mem_of_all (by decide)⟩
  have hread := Message.ofBytes_fieldChars_append hname
    (Signer.no_lf_sign scheme.hash now (s := s) ho hm) hfields hstray
  rw [String.ofList_toList, String.ofList_toList] at hread
  have hcheck := Signer.verifyOne_sign now hk ho hm hfrom hrecord now'
  rw [hread, ← withSignature, verify, getAll_withSignature, maxSignatures, List.take_succ_cons,
    verifyAll_of_isValid (by rw [hcheck]; rfl)]
  exact hcheck

theorem verify_sign_counting :
    let raw := Utf8.encode "From: a@b.c\r\nX-Note: 1\r\n 2\r\n\r\nHi\r\n".toList
    Signer.counting.key.Honest Scheme.counting ∧ Signer.counting.options.Plain ∧
    (Message.ofBytes raw).headers.contains "from" = true ∧
    Message.NoStrayFold (Message.headerLines raw) ∧
    (Dns.Context.txt ⟨10, none⟩ Signer.counting.zone.resolver Signer.counting.recordName
      ⟨0, []⟩).1 = .ok [Signer.counting.record] ∧
    (verify Scheme.counting ⟨10, none⟩ Signer.counting.zone.resolver 8
      (Message.ofBytes (Utf8.encode (Message.fieldChars ⟨"DKIM-Signature",
        Signer.counting.sign Scheme.counting.hash 7 (Message.ofBytes raw)⟩) ++ raw))
      ⟨0, []⟩).1 = ⟨.pass, some "b.c", some "s"⟩ := by
  intro raw
  have hfrom : (Message.ofBytes raw).headers.contains "from" = true := by decide +kernel
  have hstray : Message.NoStrayFold (Message.headerLines raw) := by
    have hlines : Message.headerLines raw =
        ["From: a@b.c".toList, "X-Note: 1".toList, " 2".toList] := by decide +kernel
    rw [hlines]
    exact ⟨by decide, fun e => absurd e (by decide)⟩
  have hrecord : (Dns.Context.txt ⟨10, none⟩ Signer.counting.zone.resolver
      Signer.counting.recordName ⟨0, []⟩).1 = .ok [Signer.counting.record] := by
    rfl
  exact ⟨SigningKey.honest_counting, Signer.plain_counting, hfrom, hstray, hrecord,
    verify_sign Signer.counting Scheme.counting ⟨10, none⟩ Signer.counting.zone.resolver
      7 8 ⟨0, []⟩ raw SigningKey.honest_counting Signer.plain_counting hfrom hstray hrecord⟩

/-- **A continuation behind a line that is no field** belongs to the signature in front of the
message, although the message does not begin with a continuation. -/
theorem not_valid_before_stray_line :
    let raw := Utf8.encode "x\r\n y\r\nFrom: a@b.c\r\n\r\n".toList
    (∀ b ∈ raw.head?, isSpaceByte b = false) ∧
    Signer.counting.key.Honest Scheme.counting ∧ Signer.counting.options.Plain ∧
    (Message.ofBytes raw).headers.contains "from" = true ∧
    (Dns.Context.txt ⟨10, none⟩ Signer.counting.zone.resolver Signer.counting.recordName
      ⟨0, []⟩).1 = .ok [Signer.counting.record] ∧
    (verify Scheme.counting ⟨10, none⟩ Signer.counting.zone.resolver 8
      (Message.ofBytes (Utf8.encode (Message.fieldChars ⟨"DKIM-Signature",
        Signer.counting.sign Scheme.counting.hash 7 (Message.ofBytes raw)⟩) ++ raw))
      ⟨0, []⟩).1.result = .permError := by
  refine ⟨by decide +kernel, SigningKey.honest_counting, Signer.plain_counting, ?_, rfl, ?_⟩
  · decide +kernel
  · decide +kernel

end MailScreen.Dkim
