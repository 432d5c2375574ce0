import MailScreen.Proofs.Dkim.ReportedDomain
import MailScreen.Proofs.Dkim.SignVerify
import MailScreen.Proofs.Dns.Undisturbed

/-!
# The evidence behind a valid signature

A check of a signature goes through some fifteen tests, in the tags of the signature, in the texts
at the name of its key and on the message. Here it is said without the check what all of them ask
for, and that a signature which is found valid has it all.

* `Signature.IsReadFrom` is what the tags of a signature must say; `ofTags_eq_ok_iff`: a signature
  is read from just these tags.
* `Tags.IsKey` and `HoldsFirstKey` are the same for the texts at the name of a key;
  `keyOf_eq_ok_iff`: a key is found in just these texts.
* `Signature.Fits` compares a message with a signature; `judge_eq_pass_iff`.
* `verifyOne_isValid_iff` puts the three together, and `evidence_of_pass` says it of a whole
  message.
-/

namespace MailScreen.Dkim

open MailScreen.Text Dns.Session

/-! ## Reading a signature -/

/-- A name is a domain or lies below it. -/
def IsWithin (name domain : String) : Prop :=
  name = domain ∨ ∃ labels, name = labels ++ "." ++ domain

/-- The domain of an identity, after its last `@`, is the domain that signs or lies below it. -/
def IdentityWithin (identity domain : String) : Prop :=
  ∃ name tail, identity = name ++ "@" ++ tail ∧ '@' ∉ tail.toList ∧
    IsWithin (DomainName.normalize tail) (DomainName.normalize domain)

/-- **What the tags of a signature must say** so that it is read, at a time in seconds. -/
structure Signature.IsReadFrom (now : Int) (t : Tags) (sig : Signature) : Prop where
  version : t.get? "v" = some "1"
  domain : t.get? "d" = some sig.domain
  selector : t.get? "s" = some sig.selector
  algorithm : ∃ a, t.get? "a" = some a ∧ Algorithm.ofText? a = some sig.algorithm
  names : ∃ h, t.get? "h" = some h ∧ signedNames h = sig.names
  signsFrom : "from" ∈ sig.names
  identity : ∀ i ∈ t.get? "i", IdentityWithin i sig.domain
  expiry : ∀ x ∈ t.get? "x", ∃ ends, integer? x.toList = some ends ∧ now ≤ ends
  bodyHash : ∃ bh, t.get? "bh" = some bh ∧ Base64.decode? bh.toList = some sig.bodyHash
  bytes : ∃ b, t.get? "b" = some b ∧ Base64.decode? b.toList = some sig.bytes
  bytes_ne : sig.bytes ≠ []
  forms : Form.pair? ((t.get? "c").getD "simple/simple") = some (sig.headerForm, sig.bodyForm)
  length : t.get? "l" = sig.length

theorem bind_eq_ok_iff {α β : Type} {x : Except Result α} {f : α → Except Result β} {b : β} :
    (x >>= f) = .ok b ↔ ∃ a, x = .ok a ∧ f a = .ok b := by
  constructor
  · exact bind_ok
  · rintro ⟨a, rfl, h⟩
    exact h

theorem required_eq_ok_iff {α : Type} {o : Option α} {a : α} :
    required o = .ok a ↔ o = some a := by
  constructor
  · exact required_ok
  · rintro rfl
    rfl

theorem demand_eq_ok_iff {b : Bool} {u : Unit} : demand b = .ok u ↔ b = true := by
  constructor
  · exact demand_ok
  · rintro rfl
    rfl

theorem isWithin_ofList_iff {name domain : List Char} :
    IsWithin (String.ofList name) (String.ofList domain) ↔
      name = domain ∨ '.' :: domain <:+ name := by
  refine or_congr String.ofList_inj ⟨?_, ?_⟩
  · rintro ⟨labels, h⟩
    refine ⟨labels.toList, ?_⟩
    have hchars := congrArg String.toList h
    simpa using hchars.symm
  · rintro ⟨labels, h⟩
    refine ⟨String.ofList labels, String.toList_inj.mp ?_⟩
    simpa using h.symm

theorem identityFits_iff {identity domain : String} :
    identityFits identity domain = true ↔ IdentityWithin identity domain := by
  have hwithin (tail : List Char) :
      (DomainName.normalizeChars tail == DomainName.normalizeChars domain.toList ||
        ('.' :: DomainName.normalizeChars domain.toList).isSuffixOf
          (DomainName.normalizeChars tail)) = true ↔
      IsWithin (DomainName.normalize (String.ofList tail)) (DomainName.normalize domain) := by
    rw [DomainName.normalize, DomainName.normalize, isWithin_ofList_iff, String.toList_ofList,
      Bool.or_eq_true, beq_iff_eq, List.isSuffixOf_iff_suffix]
  unfold identityFits
  simp only
  constructor
  · intro h
    split at h
    · rename_i name tail hcut
      obtain ⟨x, hx, htail, hidentity⟩ := cutLast_eq_some_iff.mp hcut
      obtain rfl := eq_of_beq hx
      refine ⟨String.ofList name, String.ofList tail, ?_, ?_, (hwithin tail).mp h⟩
      · exact String.toList_inj.mp (by simpa using hidentity)
      · intro hc
        rw [String.toList_ofList] at hc
        exact absurd (htail '@' hc) (by decide)
    · cases h
  · rintro ⟨name, tail, rfl, htail, h⟩
    have hcut : cutLast (· == '@') (name ++ "@" ++ tail).toList = some (name.toList, tail.toList) :=
      cutLast_eq_some_iff.mpr ⟨'@', rfl,
        fun y hy => beq_false_of_ne fun e => htail (e ▸ hy), by simp⟩
    rw [hcut]
    refine (hwithin tail.toList).mpr ?_
    rwa [String.ofList_toList]

theorem checkExpiry_eq_ok_iff {now : Int} {expiry : Option String} {u : Unit} :
    checkExpiry now expiry = .ok u ↔
      ∀ x ∈ expiry, ∃ ends, integer? x.toList = some ends ∧ now ≤ ends := by
  cases expiry with
  | none => exact iff_of_true rfl nofun
  | some x =>
    unfold checkExpiry
    simp only [Option.mem_def, Option.some.injEq, forall_eq']
    cases integer? x.toList with
    | none => exact iff_of_false nofun nofun
    | some ends =>
      by_cases hpast : ends < now
      · simp [hpast]
      · simp [hpast, Int.not_lt.mp hpast]

/-- **A signature is read from just these tags.** -/
theorem ofTags_eq_ok_iff {now : Int} {t : Tags} {sig : Signature} :
    Signature.ofTags now t = .ok sig ↔ sig.IsReadFrom now t := by
  unfold Signature.ofTags
  simp only [bind_eq_ok_iff, required_eq_ok_iff, demand_eq_ok_iff, checkExpiry_eq_ok_iff,
    Option.bind_eq_some_iff, Option.all_eq_true, identityFits_iff]
  constructor
  · rintro ⟨domain, hdomain, selector, hselector, -, hversion, bh, hbh, h, hh, b, hb, algorithm,
      halgorithm, -, hfrom, -, hidentity, -, hexpiry, bodyHash, hbodyHash, bytes, hbytes, -, hne,
      forms, hforms, hsig⟩
    obtain rfl := Except.ok.inj hsig
    exact {
      version := eq_of_beq hversion
      domain := hdomain
      selector := hselector
      algorithm := halgorithm
      names := ⟨h, hh, rfl⟩
      signsFrom := List.contains_iff_mem.mp hfrom
      identity := hidentity
      expiry := hexpiry
      bodyHash := ⟨bh, hbh, hbodyHash⟩
      bytes := ⟨b, hb, hbytes⟩
      bytes_ne := by simpa using hne
      forms := hforms
      length := rfl }
  · rintro ⟨hversion, hdomain, hselector, halgorithm, ⟨h, hh, hnames⟩, hfrom, hidentity, hexpiry,
      ⟨bh, hbh, hbodyHash⟩, ⟨b, hb, hbytes⟩, hne, hforms, hlength⟩
    refine ⟨_, hdomain, _, hselector, (), beq_iff_eq.mpr hversion, bh, hbh, h, hh, b, hb, _,
      halgorithm, (), ?_, (), hidentity, (), hexpiry, _, hbodyHash, _, hbytes, (), ?_, _, hforms,
      ?_⟩
    · rw [hnames]
      exact List.contains_iff_mem.mpr hfrom
    · simpa using hne
    · rw [hnames, hlength]
      rfl

/-! ## Finding the key -/

/-- **What the tags of a published key must say** so that it may be used with an algorithm. -/
structure Tags.IsKey (t : Tags) (scheme : Scheme) (algorithm : Algorithm)
    (accepts : Acceptance) : Prop where
  version : ∀ v ∈ t.get? "v", v = "DKIM1"
  kind : ((t.get? "k").map lowerAsciiString).getD "rsa" = algorithm.keyType
  published : ∃ p, t.get? "p" = some p ∧ p ≠ "" ∧ scheme.readKey algorithm p = some accepts

/-- Of some texts, the first that is read as a list of tags with a key. -/
inductive HoldsFirstKey : List String → Tags → Prop
  | here {text : String} {t : Tags} (ht : Tags.ofText text = .ok t) (hkey : t.contains "p" = true)
      (later : List String) : HoldsFirstKey (text :: later) t
  | later {text : String} {rest : List String} {t : Tags}
      (hnot : ∀ u, Tags.ofText text = .ok u → u.contains "p" = false)
      (h : HoldsFirstKey rest t) : HoldsFirstKey (text :: rest) t

/-- The first key of some texts, read from the first of them. -/
theorem keyTags?_cons (text : String) (texts : List String) : keyTags? (text :: texts) =
    match Tags.ofText text with
    | .ok t => if t.contains "p" then some t else keyTags? texts
    | .error _ => keyTags? texts := by
  unfold keyTags?
  rw [List.filterMap_cons]
  cases Tags.ofText text with
  | error fault => rfl
  | ok t =>
    simp only [Except.toOption, List.find?_cons]
    cases t.contains "p" <;> rfl

theorem keyTags?_eq_some_iff {texts : List String} {t : Tags} :
    keyTags? texts = some t ↔ HoldsFirstKey texts t := by
  constructor
  · intro h
    induction texts with
    | nil => cases h
    | cons text texts ih =>
      rw [keyTags?_cons] at h
      split at h
      · rename_i u hu
        split at h
        · rename_i hkey
          obtain rfl := Option.some.inj h
          exact .here hu hkey texts
        · rename_i hkey
          refine .later (fun v hv => ?_) (ih h)
          obtain rfl := Except.ok.inj (hu.symm.trans hv)
          exact Bool.eq_false_iff.mpr hkey
      · rename_i fault hfault
        refine .later (fun v hv => ?_) (ih h)
        rw [hfault] at hv
        cases hv
  · intro h
    induction h with
    | here ht hkey texts =>
      rw [keyTags?_cons, ht]
      exact if_pos hkey
    | @later text texts t hnot _ ih =>
      rw [keyTags?_cons]
      cases hu : Tags.ofText text with
      | error fault => exact ih
      | ok u =>
        simp only [hnot u hu]
        exact ih

/-- **A key is found in just these texts.** -/
theorem keyOf_eq_ok_iff {scheme : Scheme} {algorithm : Algorithm} {texts : List String}
    {accepts : Acceptance} : keyOf scheme algorithm texts = .ok accepts ↔
      ∃ t, HoldsFirstKey texts t ∧ t.IsKey scheme algorithm accepts := by
  unfold keyOf
  simp only [bind_eq_ok_iff, required_eq_ok_iff, demand_eq_ok_iff, keyTags?_eq_some_iff,
    Option.all_eq_true, beq_iff_eq, bne_iff_ne]
  constructor
  · rintro ⟨t, hfirst, -, hversion, -, hkind, -, hne, hreads⟩
    refine ⟨t, hfirst, hversion, hkind, ?_⟩
    cases hp : t.get? "p" with
    | none =>
      rw [hp] at hne
      exact absurd rfl hne
    | some p =>
      rw [hp] at hne hreads
      exact ⟨p, rfl, hne, hreads⟩
  · rintro ⟨t, hfirst, hversion, hkind, p, hp, hne, hreads⟩
    refine ⟨t, hfirst, (), hversion, (), hkind, (), ?_, ?_⟩
    · rwa [hp]
    · rwa [hp]

/-! ## Comparing the message -/

/-- The part of a canonical body that is signed: all of it, or as much as is written. -/
inductive IsSignedPart (bytes : List UInt8) : Option String → List UInt8 → Prop
  | whole : IsSignedPart bytes none bytes
  | leading {text : String} {n : Nat}
      (hn : unsigned? 18446744073709551615 text.toList = .ok n) (hle : n ≤ bytes.length) :
      IsSignedPart bytes (some text) (bytes.take n)

/-- **What a message must have** so that a signature fits it under a key. -/
structure Signature.Fits (sig : Signature) (scheme : Scheme) (accepts : Acceptance)
    (m : Mail.Message) (text : String) : Prop where
  body : ∃ part, IsSignedPart (body sig.bodyForm m.body) sig.length part ∧
    scheme.hash part = sig.bodyHash
  signed : ∃ stripped, withoutSignature text = .ok stripped ∧
    accepts (headerBytes sig.headerForm m.headers sig.names stripped) sig.bytes = true

theorem signedBody_eq_ok_iff {length : Option String} {bytes part : List UInt8} :
    signedBody length bytes = .ok part ↔ IsSignedPart bytes length part := by
  constructor
  · intro h
    unfold signedBody at h
    split at h
    · obtain rfl := Except.ok.inj h
      exact .whole
    · split at h
      · rename_i n hn
        split at h
        · rename_i hle
          obtain rfl := Except.ok.inj h
          exact .leading hn hle
        · cases h
      · cases h
  · rintro (_ | ⟨hn, hle⟩)
    · rfl
    · simp [signedBody, hn, hle]

theorem judge_eq_pass_iff {sig : Signature} {scheme : Scheme} {accepts : Acceptance}
    {m : Mail.Message} {text : String} :
    sig.judge scheme accepts m text = .pass ↔ sig.Fits scheme accepts m text := by
  constructor
  · intro h
    refine ⟨?_, judge_pass h⟩
    unfold Signature.judge at h
    split at h
    · rename_i e he
      exact absurd h (isFault_of_signedBody he).1
    · rename_i part hpart
      split at h
      · cases h
      · rename_i hhash
        exact ⟨part, signedBody_eq_ok_iff.mp hpart, not_not.mp hhash⟩
  · rintro ⟨⟨part, hpart, hhash⟩, ⟨stripped, hstripped, haccepts⟩⟩
    unfold Signature.judge
    simp [signedBody_eq_ok_iff.mpr hpart, hhash, hstripped, haccepts]

/-! ## A signature, from its text to its key -/

/-- **The evidence for a signature**, of which `found` is what was found at the name of its key: it
is read from its text, its key is in what was found, and it fits the message. -/
structure Signature.Evidence (sig : Signature) (scheme : Scheme) (now : Int) (m : Mail.Message)
    (text : String) (found : Except Dns.LookupError (List String)) : Prop where
  read : ∃ t, Tags.ofText text = .ok t ∧ sig.IsReadFrom now t
  fits : ∃ texts t accepts, found = .ok texts ∧ HoldsFirstKey texts t ∧
    t.IsKey scheme sig.algorithm accepts ∧ sig.Fits scheme accepts m text

variable {scheme : Scheme} {ctx : Dns.Context} {r : Dns.Resolver} {now : Int} {m : Mail.Message}
  {text : String}

theorem keyOfAnswer_eq_ok_iff {algorithm : Algorithm}
    {found : Except Dns.LookupError (List String)} {accepts : Acceptance} :
    keyOfAnswer scheme algorithm found = .ok accepts ↔
      ∃ texts, found = .ok texts ∧ keyOf scheme algorithm texts = .ok accepts := by
  constructor
  · intro h
    cases found with
    | ok texts => exact ⟨texts, rfl, h⟩
    | error e => cases e <;> cases h
  · rintro ⟨texts, rfl, h⟩
    exact h

theorem verifyTags_eq_pass_iff {t : Tags} {s : Dns.Session} :
    (verifyTags scheme ctx r now m text t s).1 = .pass ↔
      ∃ sig accepts, Signature.ofTags now t = .ok sig ∧ keyOfAnswer scheme sig.algorithm
        (ctx.txt r (keyName sig.selector sig.domain) s).1 = .ok accepts ∧
        sig.judge scheme accepts m text = .pass := by
  constructor
  · intro h
    rcases verifyTags_cases scheme ctx r now m text t s with
      hfault | ⟨sig, accepts, hsig, hkey, hjudge⟩
    · exact absurd h hfault.1
    · exact ⟨sig, accepts, hsig, hkey, hjudge.symm.trans h⟩
  · rintro ⟨sig, accepts, hsig, hkey, h⟩
    rw [verifyTags_of_ok hsig hkey]
    exact h

/-- **A signature is found valid on just this evidence.** -/
theorem verifyOne_isValid_iff {s : Dns.Session} :
    (verifyOne scheme ctx r now m text s).1.isValid = true ↔
      ∃ sig : Signature, sig.Evidence scheme now m text
        (ctx.txt r (keyName sig.selector sig.domain) s).1 := by
  unfold Outcome.isValid
  rw [beq_iff_eq]
  cases ht : Tags.ofText text with
  | error fault =>
    rw [verifyOne_of_error ht]
    refine iff_of_false nofun ?_
    rintro ⟨sig, ⟨t, ht', -⟩, -⟩
    rw [ht] at ht'
    cases ht'
  | ok t =>
    rw [verifyOne_of_ok ht]
    show (verifyTags scheme ctx r now m text t s).1 = .pass ↔ _
    simp only [verifyTags_eq_pass_iff, keyOfAnswer_eq_ok_iff, keyOf_eq_ok_iff, ofTags_eq_ok_iff,
      judge_eq_pass_iff]
    constructor
    · rintro ⟨sig, accepts, hread, ⟨texts, hfound, u, hfirst, hkey⟩, hfits⟩
      exact ⟨sig, ⟨t, ht, hread⟩, texts, u, accepts, hfound, hfirst, hkey, hfits⟩
    · rintro ⟨sig, ⟨t', ht', hread⟩, texts, u, accepts, hfound, hfirst, hkey, hfits⟩
      obtain rfl := Except.ok.inj (ht.symm.trans ht')
      exact ⟨sig, accepts, hread, ⟨texts, hfound, u, hfirst, hkey⟩, hfits⟩

/-- The outcome for a signature with this evidence. -/
theorem Signature.Evidence.verifyOne_eq {sig : Signature} {s : Dns.Session}
    (h : sig.Evidence scheme now m text (ctx.txt r (keyName sig.selector sig.domain) s).1) :
    (verifyOne scheme ctx r now m text s).1 =
      ⟨.pass, some (DomainName.normalize sig.domain), some sig.selector⟩ := by
  have hvalid := verifyOne_isValid_iff.mpr ⟨sig, h⟩
  obtain ⟨t, ht, hread⟩ := h.read
  rw [verifyOne_of_ok ht, hread.domain, hread.selector] at hvalid ⊢
  have hresult : (verifyTags scheme ctx r now m text t s).1 = .pass := eq_of_beq hvalid
  rw [hresult]
  rfl

/-! ## A whole message -/

/-- **A pass has all the evidence.** If a message is found valid with any zone, in any context and
at any time, then one of the signatures that are checked is read from its text, the texts that the
zone publishes at the name of its key hold that key, and the message fits the signature under it;
and the outcome names the domain and the selector of this signature. -/
theorem evidence_of_pass {scheme : Scheme} {ctx : Dns.Context} {z : Dns.Zone} {now : Int}
    {m : Mail.Message} {s : Dns.Session}
    (h : (verify scheme ctx z.resolver now m s).1.result = .pass) :
    ∃ text ∈ (m.headers.getAll "dkim-signature").take maxSignatures, ∃ sig : Signature,
      sig.Evidence scheme now m text (z.answer z.texts (keyName sig.selector sig.domain)) ∧
      (verify scheme ctx z.resolver now m s).1 =
        ⟨.pass, some (DomainName.normalize sig.domain), some sig.selector⟩ := by
  -- the outcome for the message is that for one of its signatures
  have hone : (verify scheme ctx z.resolver now m s).1.isValid = true →
      ∃ text ∈ (m.headers.getAll "dkim-signature").take maxSignatures, ∃ s',
        (verifyOne scheme ctx z.resolver now m text s').1 =
          (verify scheme ctx z.resolver now m s).1 := by
    refine verifyAll_of_forall (P := fun o => o.isValid = true → ∃ text ∈ _, ∃ s',
      (verifyOne scheme ctx z.resolver now m text s').1 = o) ?hcheck ?hbest ?hunsigned s
    case hcheck => exact fun text htext s' _ => ⟨text, htext, s', rfl⟩
    case hbest => exact nofun
    case hunsigned => exact nofun
  obtain ⟨text, htext, s', hs'⟩ := hone (beq_iff_eq.mpr h)
  have hvalid : (verifyOne scheme ctx z.resolver now m text s').1.isValid = true := by
    rw [hs']
    exact beq_iff_eq.mpr h
  obtain ⟨sig, hevidence⟩ := verifyOne_isValid_iff.mp hvalid
  refine ⟨text, htext, sig, ?_, hs'.symm.trans hevidence.verifyOne_eq⟩
  obtain ⟨texts, t, accepts, hfound, hfits⟩ := hevidence.fits
  exact ⟨hevidence.read, texts, t, accepts,
    Dns.Context.answer_of_look_eq_ok (q := .txt _) hfound, hfits⟩

theorem evidence_of_pass_subdomain :
    let m := Mail.Message.ofBytes (Utf8.encode (
      "DKIM-Signature: v=1; a=rsa-sha256; d=b.com; s=x; h=from; bh=AA==; b=AA==\r\n" ++
      "DKIM-Signature: v=1; a=ed25519-sha256; c=relaxed; d=A.com.; s=s; i=u@Mail.a.com;" ++
      " x=9;\r\n l=2; h=From:to; bh=Ag==; b=gA==\r\n" ++
      "From: <u@a.com>\r\n\r\nHi there\r\n").toList)
    let z := ((Dns.Zone.empty.addText "s._domainkey.a.com" "v=spf1 -all").addText
      "S._domainkey.a.com" "p").addText "s._domainkey.a.com." "k=Ed25519; p=AQ=="
    let o := (verify Scheme.counting ⟨10, none⟩ z.resolver 8 m ⟨0, []⟩).1
    o.result = .pass ∧
      ∃ text ∈ (m.headers.getAll "dkim-signature").take maxSignatures, ∃ sig : Signature,
        sig.Evidence Scheme.counting 8 m text
          (z.answer z.texts (keyName sig.selector sig.domain)) ∧
        o = ⟨.pass, some (DomainName.normalize sig.domain), some sig.selector⟩ := by
  refine ⟨?pass, evidence_of_pass ?pass⟩
  case pass => decide +kernel

end MailScreen.Dkim
