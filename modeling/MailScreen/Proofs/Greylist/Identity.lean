import MailScreen.Crypto.Sha2
import MailScreen.Proofs.Greylist.History
import MailScreen.Proofs.Ip.Printed
import MailScreen.Proofs.Mail.Message
import MailScreen.Proofs.Text.Ascii
import Mathlib.Tactic.SplitIfs

/-!
# Which requests share an entry

A store knows a sender by three texts that it joins with zero bytes. A block holds no zero, so where
it ends is clear. The addresses of the envelope may hold one, and then a zero in them can be taken
for the byte that stands between them.

* `zero_not_mem_lowerFull`, `zero_not_mem_block`: no zero comes up where there was none.
* `tuple_eq_iff`: two tuples are the same if their blocks are and either both their addresses are,
  or a zero divides the same text at two places (`Straddles`).
* `uses_iff`: the entry that a check reads and writes is the one under the key of the request.
* `sharesEntry_iff`: two requests use one entry when their tuples are the same. If no address holds
  a zero, this is when block, sender and recipient are.
-/

namespace MailScreen.Greylist

open MailScreen.Text MailScreen.Mail

/-! ## Lower case -/

/-- The lower case of a character that has one is a character other than zero. -/
theorem isValidChar_of_mem_caseRanges : ∀ r ∈ caseRanges, 0 < r.first + r.offset ∧
    (r.last + r.offset < 0xD800 ∨ 0xDFFF < r.first + r.offset ∧ r.last + r.offset < 0x110000) := by
  decide +kernel

theorem lowerChar_ne_zero {c : Char} (hc : c ≠ '\x00') : lowerChar c ≠ '\x00' := by
  unfold lowerChar
  by_cases hascii : c.toNat < 0x80
  · rw [if_pos hascii]
    exact fun h => hc (eq_of_toLower_eq (by decide) h)
  · rw [if_neg hascii]
    split
    · rename_i r hr
      have hrange := isValidChar_of_mem_caseRanges r (List.mem_of_find?_eq_some hr)
      have hin := List.find?_some hr
      simp only [Bool.and_eq_true, decide_eq_true_eq] at hin
      have hvalid : (c.toNat + r.offset).toNat.isValidChar := by
        unfold Nat.isValidChar
        omega
      have hnat : (Char.ofNat (c.toNat + r.offset).toNat).toNat = (c.toNat + r.offset).toNat := by
        rw [Char.ofNat, dif_pos hvalid]
        rfl
      intro hzero
      rw [hzero] at hnat
      have hz : '\x00'.toNat = 0 := rfl
      omega
    · exact hc

theorem zero_not_mem_lowerAt {c : Char} (hc : c ≠ '\x00') (before after : List Char) :
    '\x00' ∉ lowerAt before c after := by
  unfold lowerAt
  split_ifs
  · decide
  · decide
  · decide
  · simpa using (lowerChar_ne_zero hc).symm

/-- **A text without a zero** has none in lower case. -/
theorem zero_not_mem_lowerFull {cs : List Char} (h : '\x00' ∉ cs) : '\x00' ∉ lowerFull cs := by
  suffices hfrom : ∀ before, '\x00' ∉ lowerFrom before cs from hfrom []
  induction cs with
  | nil => exact fun _ => List.not_mem_nil
  | cons c cs ih =>
    rw [List.mem_cons, not_or] at h
    intro before
    rw [lowerFrom_cons, List.mem_append, not_or]
    exact ⟨zero_not_mem_lowerAt (Ne.symm h.1) before cs, ih h.2 _⟩

theorem lowerFull_ne_nil {cs : List Char} (h : cs ≠ []) : lowerFull cs ≠ [] := by
  obtain ⟨c, cs, rfl⟩ := List.exists_cons_of_ne_nil h
  have hat : lowerAt [] c cs ≠ [] := by
    unfold lowerAt
    split_ifs <;> exact List.cons_ne_nil _ _
  rw [lowerFull, lowerFrom_cons]
  exact List.append_ne_nil_of_left_ne_nil hat _

/-- An address is not empty, so it is not taken for the null sender. -/
theorem folded_ne_empty (m : Mailbox) : folded m ≠ "" := by
  intro h
  have hne : m.toText.toList ≠ [] := by simp [Mailbox.toText]
  apply lowerFull_ne_nil hne
  simpa [folded, lowerFullString] using congrArg String.toList h

/-! ## Blocks -/

theorem zero_not_mem_toChars (a : Ip.Address) : '\x00' ∉ a.toChars := fun h =>
  absurd (Ip.mem_printable_of_mem_toChars h) (by decide)

/-- **A block holds no zero.** -/
theorem zero_not_mem_block (p : Policy) (client : Ip.Address) :
    '\x00' ∉ (p.block client).toList := by
  unfold Policy.block
  simp only
  split
  · rw [Ip.Network.toText, Ip.Network.toChars, String.toList_ofList, List.mem_append, List.mem_cons]
    rintro (h | h | h)
    · exact zero_not_mem_toChars _ h
    · exact absurd h (by decide)
    · exact absurd (mem_hexDigits_of_mem_toDigits (by decide) (by decide) h) (by decide)
  · rw [Ip.Address.toText, String.toList_ofList]
    exact zero_not_mem_toChars _

/-! ## Tuples -/

/-- The sender of a request as it stands in the tuple. -/
def senderText (r : Request) : String :=
  r.sender.elim "" folded

/-- The same envelope: both senders are null or the same, and the recipients are, without regard to
case. -/
def SameEnvelope (r r' : Request) : Prop :=
  r.sender.map folded = r'.sender.map folded ∧ folded r.recipient = folded r'.recipient

instance (r r' : Request) : Decidable (SameEnvelope r r') :=
  inferInstanceAs (Decidable (_ ∧ _))

/-- **A zero divides one text at two places**: what stands between them is the end of the sender in
one request, and the beginning of the recipient in the other. -/
def Straddles (r r' : Request) : Prop :=
  ∃ between : String, senderText r' = senderText r ++ "\x00" ++ between ∧
    folded r.recipient = between ++ "\x00" ++ folded r'.recipient

variable {p : Policy} {hash : List UInt8 → List UInt8} {r r' : Request}

theorem senderText_eq_iff :
    senderText r = senderText r' ↔ r.sender.map folded = r'.sender.map folded := by
  unfold senderText
  cases r.sender with
  | none =>
    cases r'.sender with
    | none => simp
    | some m => simp [(folded_ne_empty m).symm]
  | some m =>
    cases r'.sender with
    | none => simp [folded_ne_empty m]
    | some m' => simp

/-- A tuple is a text of three, with zeros between them. -/
theorem tuple_eq (block : String) (r : Request) : tuple block r.sender r.recipient =
    Utf8.encode (block.toList ++
      '\x00' :: ((senderText r).toList ++ '\x00' :: (folded r.recipient).toList)) := by
  have hzero (cs : List Char) : Utf8.encode ('\x00' :: cs) = 0 :: Utf8.encode cs := rfl
  rw [Utf8.encode_append, hzero, Utf8.encode_append, hzero, tuple, senderText]
  simp [Utf8.encodeString]

theorem Straddles.toList_eq (h : Straddles r r') :
    (senderText r).toList ++ '\x00' :: (folded r.recipient).toList =
      (senderText r').toList ++ '\x00' :: (folded r'.recipient).toList := by
  obtain ⟨between, hsender, hrecipient⟩ := h
  rw [hsender, hrecipient]
  simp

/-- **Where a sender ends** in a text with a zero behind it: in both the same, or a zero of one
sender is the one behind the other. -/
theorem toList_eq_iff : (senderText r).toList ++ '\x00' :: (folded r.recipient).toList =
      (senderText r').toList ++ '\x00' :: (folded r'.recipient).toList ↔
    SameEnvelope r r' ∨ Straddles r r' ∨ Straddles r' r := by
  constructor
  · intro h
    rcases append_eq_append_cons h with ⟨between, hsender, hrecipient⟩ | ⟨l, hsender, hrecipient⟩
    · refine Or.inr (Or.inr ⟨String.ofList between, ?_, ?_⟩)
      · exact String.toList_inj.mp (by simp [hsender])
      · exact String.toList_inj.mp (by simp [hrecipient])
    · cases l with
      | nil =>
        rw [List.append_nil] at hsender
        exact Or.inl ⟨senderText_eq_iff.mp (String.toList_inj.mp hsender.symm),
          String.toList_inj.mp (List.cons.inj hrecipient).2⟩
      | cons c between =>
        rw [List.cons_append, List.cons.injEq] at hrecipient
        obtain ⟨rfl, hrecipient⟩ := hrecipient
        refine Or.inr (Or.inl ⟨String.ofList between, ?_, ?_⟩)
        · exact String.toList_inj.mp (by simp [hsender])
        · exact String.toList_inj.mp (by simp [hrecipient])
  · rintro (⟨hsender, hrecipient⟩ | h | h)
    · rw [senderText_eq_iff.mpr hsender, hrecipient]
    · exact h.toList_eq
    · exact h.toList_eq.symm

/-- **Two tuples are the same** if their blocks are, and their envelopes or the texts that these
make with a zero in between. -/
theorem tuple_eq_iff {block block' : String} (hblock : '\x00' ∉ block.toList)
    (hblock' : '\x00' ∉ block'.toList) :
    tuple block r.sender r.recipient = tuple block' r'.sender r'.recipient ↔
      block = block' ∧ (SameEnvelope r r' ∨ Straddles r r' ∨ Straddles r' r) := by
  rw [tuple_eq, tuple_eq, ← toList_eq_iff]
  constructor
  · intro h
    have hcut := congrArg (cutFirst (· == '\x00')) (Utf8.encode_injective h)
    rw [cutFirst_append_cons (by rfl) (beq_false_of_not_mem hblock),
      cutFirst_append_cons (by rfl) (beq_false_of_not_mem hblock'), Option.some.injEq,
      Prod.mk.injEq] at hcut
    exact ⟨String.toList_inj.mp hcut.1, hcut.2⟩
  · rintro ⟨rfl, h⟩
    rw [h]

/-! ## Entries -/

/-- No address of the envelope holds a zero. -/
def ZeroFree (r : Request) : Prop :=
  (∀ m ∈ r.sender, '\x00' ∉ m.toText.toList) ∧ '\x00' ∉ r.recipient.toText.toList

theorem ZeroFree.not_straddles (h : ZeroFree r') : ¬ Straddles r r' := by
  rintro ⟨between, hsender, -⟩
  have hzero : '\x00' ∈ (senderText r').toList := by simp [hsender]
  unfold senderText at hzero
  cases hr : r'.sender with
  | none => simp [hr] at hzero
  | some m =>
    have hfree := zero_not_mem_lowerFull (h.1 m hr)
    exact hfree (by simpa [hr, folded, lowerFullString] using hzero)

/-- The tuple of a request. -/
def Policy.tupleOf (p : Policy) (r : Request) : List UInt8 :=
  tuple (p.block r.client) r.sender r.recipient

/-- **An attempt uses the entry of a key**: whatever a store remembers, the check is an attempt of
that entry, and changes no other. -/
def Policy.Uses (p : Policy) (hash : List UInt8 → List UInt8) (key : List UInt8) (a : Attempt) :
    Prop :=
  ∀ entries : Table (List UInt8) Entry,
    (⟨p, entries⟩ : Store).check hash a.request a.instant =
      (⟨(attempt p (entries.find? key) a.instant).1, true⟩,
        ⟨p, entries.put key (attempt p (entries.find? key) a.instant).2⟩)

/-- Two attempts use one entry. -/
def Policy.SharesEntry (p : Policy) (hash : List UInt8 → List UInt8) (a a' : Attempt) : Prop :=
  ∃ key, p.Uses hash key a ∧ p.Uses hash key a'

variable {key : List UInt8} {a a' : Attempt}

/-- An attempt uses the entry under whose key it is recorded, and only that one. -/
theorem uses_iff : p.Uses hash key a ↔ p.records hash key a = true := by
  rw [Store.records_iff]
  constructor
  · intro h
    cases hexempts : p.exempts a.request with
    | true =>
      have hcheck := (h .empty).symm.trans (Store.check_of_exempts hexempts)
      cases congrArg (·.1.recorded) hcheck
    | false =>
      have hcheck := (h .empty).symm.trans (Store.check_of_not_exempts hexempts)
      have hfind := congrArg (·.2.entries.find? key) hcheck
      refine ⟨rfl, Eq.symm ?_⟩
      by_contra hne
      simp [Table.find?_put, hne] at hfind
  · rintro ⟨hexempts, rfl⟩ entries
    exact Store.check_of_not_exempts hexempts

/-- **When two attempts share an entry**, neither being exempt and the hash telling their tuples
apart: when they come from one block, and their envelopes are the same or a zero in an address is
taken for the one between the addresses. So without zeros in their addresses they do if they have
the same block, sender and recipient, and only then. -/
theorem sharesEntry_iff (ha : p.exempts a.request = false) (ha' : p.exempts a'.request = false)
    (hhash : hash (p.tupleOf a.request) = hash (p.tupleOf a'.request) →
      p.tupleOf a.request = p.tupleOf a'.request) :
    (p.SharesEntry hash a a' ↔
      p.block a.request.client = p.block a'.request.client ∧
        (SameEnvelope a.request a'.request ∨ Straddles a.request a'.request ∨
          Straddles a'.request a.request)) ∧
      (ZeroFree a.request → ZeroFree a'.request →
        (p.SharesEntry hash a a' ↔
          p.block a.request.client = p.block a'.request.client ∧
            SameEnvelope a.request a'.request)) := by
  have hshared : p.SharesEntry hash a a' ↔ p.tupleOf a.request = p.tupleOf a'.request := by
    unfold Policy.SharesEntry
    simp only [uses_iff, Store.records_iff]
    constructor
    · rintro ⟨key, ⟨-, hkey⟩, -, hkey'⟩
      exact hhash (hkey.trans hkey'.symm)
    · intro h
      exact ⟨_, ⟨ha, rfl⟩, ha', congrArg hash h.symm⟩
  have htuples := hshared.trans (tuple_eq_iff (zero_not_mem_block p a.request.client)
    (zero_not_mem_block p a'.request.client))
  refine ⟨htuples, fun hfree hfree' => ?_⟩
  rw [htuples]
  simp [hfree.not_straddles, hfree'.not_straddles]

theorem sharesEntry_iff_folded :
    let p := Policy.ofSettings {}
    let a : Attempt := ⟨⟨.v4 0xCB007105, "mx.b.c", some ⟨"Alice", "b.c"⟩, ⟨"u", "d.e"⟩, none,
      ⟨⟨[]⟩, []⟩⟩, 0⟩
    let a' : Attempt := ⟨⟨.v6 (Ip.Address.mapping 0xCB007106), "mx.b.c", some ⟨"aLICE", "b.c"⟩,
      ⟨"U", "d.e"⟩, none, ⟨⟨[]⟩, []⟩⟩, 9⟩
    p.exempts a.request = false ∧ p.exempts a'.request = false ∧
      p.tupleOf a.request = p.tupleOf a'.request ∧ p.SharesEntry Crypto.sha256 a a' := by
  intro p a a'
  have ha : p.exempts a.request = false := by decide +kernel
  have ha' : p.exempts a'.request = false := by decide +kernel
  have htuple : p.tupleOf a.request = p.tupleOf a'.request := by decide +kernel
  have hblock : p.block a.request.client = p.block a'.request.client := by decide +kernel
  have hsame : SameEnvelope a.request a'.request := by decide +kernel
  exact ⟨ha, ha', htuple, (sharesEntry_iff ha ha' fun _ => htuple).1.mpr ⟨hblock, Or.inl hsame⟩⟩

/-- **A zero in an address** lets attempts with different envelopes share an entry: the second is
taken for the retry of the first. -/
theorem sharesEntry_of_straddles :
    let p := Policy.ofSettings {}
    let attempt (sender recipient : Mailbox) (t : Int) : Attempt :=
      ⟨⟨.v4 0xCB007105, "mx.b.c", some sender, recipient, none, ⟨⟨[]⟩, []⟩⟩, t * 1000000000⟩
    let a := attempt ⟨"a", "b.c"⟩ ⟨"u\x00v", "d.e"⟩ 0
    let a' := attempt ⟨"a", "b.c\x00u"⟩ ⟨"v", "d.e"⟩ 600
    Mailbox.ofText? "a@b.c" = a.request.sender ∧
      Mailbox.ofText? "u\x00v@d.e" = some a.request.recipient ∧
      Mailbox.ofText? "a@b.c\x00u" = a'.request.sender ∧
      Mailbox.ofText? "v@d.e" = some a'.request.recipient ∧
      p.exempts a.request = false ∧ p.exempts a'.request = false ∧
      ¬ SameEnvelope a.request a'.request ∧ p.SharesEntry Crypto.sha256 a a' ∧
      (Store.fresh p).findings Crypto.sha256 [a, a'] = [⟨.defer, true⟩, ⟨.pass, true⟩] := by
  intro p attempt a a'
  have ha : p.exempts a.request = false := by decide +kernel
  have ha' : p.exempts a'.request = false := by decide +kernel
  have htuple : p.tupleOf a'.request = p.tupleOf a.request := by decide +kernel
  refine ⟨by decide +kernel, by decide +kernel, by decide +kernel, by decide +kernel, ha, ha',
    by decide +kernel, ⟨p.key Crypto.sha256 a.request, ?_, ?_⟩, by decide +kernel⟩
  · exact uses_iff.mpr (Store.records_iff.mpr ⟨ha, rfl⟩)
  · exact uses_iff.mpr (Store.records_iff.mpr ⟨ha', congrArg Crypto.sha256 htuple⟩)

end MailScreen.Greylist
