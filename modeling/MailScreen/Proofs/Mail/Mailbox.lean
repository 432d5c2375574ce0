import MailScreen.Proofs.Mail.Domain

/-!
# Mailboxes that are written and read back

A text is trimmed and loses its angle brackets before it is divided, each of these once and in this
order, and its domain loses the dots at its end after both parts were looked at. So what is read
need not be what its own text is read as.

* `DomainName.unbracket_eq_self_iff`: which texts nothing is taken off.
* `Mailbox.domain_eq_empty_iff`: the domain that is read is empty just if the text has nothing but
  dots for one.
* `Mailbox.ofText?_toText_iff`: which of the mailboxes that were read are read back, and
  `Mailbox.parts_of_read` all that is known of one.
* `Mailbox.read_enclosed`: in the value of a field the last pair of angle brackets decides, whatever
  stands before it.
-/

namespace MailScreen.DomainName

open MailScreen.Text

theorem trim_isInfix (cs : List Char) : trim cs <:+: cs :=
  (dropEndWhile_isPrefix isBlank _).isInfix.trans (List.dropWhile_suffix isBlank).isInfix

theorem unbracket_isInfix_trim (cs : List Char) : unbracket cs <:+: trim cs :=
  (dropEndWhile_isPrefix _ _).isInfix.trans (List.dropWhile_suffix _).isInfix

theorem unbracket_isInfix (cs : List Char) : unbracket cs <:+: cs :=
  (unbracket_isInfix_trim cs).trans (trim_isInfix cs)

/-- What is taken off makes the text shorter. -/
theorem unbracket_eq_self_of_le {cs : List Char} (h : cs.length ≤ (unbracket cs).length) :
    unbracket cs = cs :=
  (unbracket_isInfix cs).sublist.eq_of_length_le h

theorem head?_unbracket_ne (cs : List Char) : (unbracket cs).head? ≠ some '<' := by
  intro h
  obtain ⟨back, hback⟩ := dropEndWhile_isPrefix (· == '>') ((trim cs).dropWhile (· == '<'))
  have hhead : ((trim cs).dropWhile (· == '<')).head? = some '<' := by
    rw [← hback, List.head?_append, ← unbracket, h]
    rfl
  simpa using head?_dropWhile_not (· == '<') (trim cs) hhead

theorem getLast?_unbracket_ne (cs : List Char) : (unbracket cs).getLast? ≠ some '>' :=
  fun h => by simpa using getLast?_dropEndWhile_not (· == '>') _ h

/-- **Nothing is taken off a text** that has neither blanks nor brackets at its ends. -/
theorem unbracket_eq_self_iff {cs : List Char} :
    unbracket cs = cs ↔ Trimmed cs ∧ cs.head? ≠ some '<' ∧ cs.getLast? ≠ some '>' := by
  constructor
  · intro h
    refine ⟨?_, h ▸ head?_unbracket_ne cs, h ▸ getLast?_unbracket_ne cs⟩
    have hshorter : (unbracket cs).length ≤ (trim cs).length :=
      (unbracket_isInfix_trim cs).length_le
    rw [h] at hshorter
    have htrim : trim cs = cs := (trim_isInfix cs).sublist.eq_of_length_le hshorter
    exact htrim ▸ trimmed_trim cs
  · rintro ⟨htrimmed, hhead, hlast⟩
    rw [unbracket, trim_eq_self htrimmed, dropWhile_eq_self, dropEndWhile_eq_self]
    · exact fun c hc => beq_false_of_ne fun e => hlast (e ▸ hc)
    · exact fun c hc => beq_false_of_ne fun e => hhead (e ▸ hc)

end MailScreen.DomainName

namespace MailScreen.Mail

open MailScreen.Text DomainName

namespace Mailbox

/-! ## What is read -/

variable {s : String} {m : Mailbox}

theorem toList_toText (m : Mailbox) :
    m.toText.toList = m.name.toList ++ '@' :: m.domain.toList := by
  simp [toText]

/-- The text of a mailbox that was read, without what is taken off it: the name as it is kept, and
a domain at least as long as the one that is kept. -/
theorem exists_of_ofText? (h : ofText? s = some m) :
    ∃ domain, unbracket s.toList = m.name.toList ++ '@' :: domain ∧ '@' ∉ domain ∧
      m.name.toList ≠ [] ∧ domain ≠ [] ∧
      m.domain.toList = lowerAscii (dropEndWhile (· == '.') domain) ∧
      m.domain.toList.length ≤ domain.length := by
  obtain ⟨name, domain, htext, hat, hname, hdomain, -, rfl⟩ := ofChars?_eq_some_iff.mp h
  refine ⟨domain, by rwa [String.toList_ofList], hat, by rwa [String.toList_ofList], hdomain,
    String.toList_ofList, ?_⟩
  rw [String.toList_ofList, lowerAscii, List.length_map]
  exact (dropEndWhile_isPrefix _ domain).length_le

/-- **No domain is left** of a text with nothing but dots behind its last `@`. -/
theorem domain_eq_empty_iff (h : ofText? s = some m) :
    m.domain = "" ↔ ∃ dots, unbracket s.toList = m.name.toList ++ '@' :: dots ∧
      ∀ c ∈ dots, c = '.' := by
  obtain ⟨domain, htext, hat, -, -, hkept, -⟩ := exists_of_ofText? h
  have hdots : m.domain = "" ↔ ∀ c ∈ domain, c = '.' := by
    rw [← String.toList_eq_nil_iff, hkept, lowerAscii, List.map_eq_nil_iff, dropEndWhile_eq_nil_iff]
    simp only [beq_iff_eq]
  rw [hdots]
  constructor
  · exact fun hall => ⟨domain, htext, hall⟩
  · rintro ⟨dots, htext', hall⟩
    have hsame : '@' :: domain = '@' :: dots := List.append_cancel_left (htext ▸ htext')
    rwa [(List.cons.inj hsame).2]

/-- **A mailbox that was read is read back** from its own text just if it has a domain and nothing
is taken off that text. -/
theorem ofText?_toText_iff (h : ofText? s = some m) :
    ofText? m.toText = some m ↔ m.domain ≠ "" ∧
      (∀ c, m.name.toList.head? = some c → isBlank c = false) ∧
      m.domain.toList.getLast? ≠ some '>' := by
  obtain ⟨domain, htext, hat, hname, hdomain, hkept, -⟩ := exists_of_ofText? h
  have hhead : m.toText.toList.head? = m.name.toList.head? := by
    rw [toList_toText, List.head?_append_of_ne_nil _ hname]
  have hlast : m.domain ≠ "" → m.toText.toList.getLast? = m.domain.toList.getLast? := by
    intro hne
    have hne' : m.domain.toList ≠ [] := by simpa using hne
    rw [toList_toText, List.getLast?_append_of_ne_nil _ (List.cons_ne_nil _ _),
      List.getLast?_cons_of_ne_nil hne']
  constructor
  · intro hback
    obtain ⟨again, htext', -, -, hagain, -, hlength⟩ := exists_of_ofText? hback
    -- the text holds the name and the domain, and no text is longer than what it is a part of
    have hnothing : unbracket m.toText.toList = m.toText.toList := by
      apply unbracket_eq_self_of_le
      rw [htext', toList_toText]
      simpa using hlength
    have hne : m.domain ≠ "" := by
      rintro hempty
      have hsame := hnothing
      rw [htext', toList_toText, hempty] at hsame
      exact hagain (by simpa using hsame)
    obtain ⟨htrimmed, -, hbracket⟩ := unbracket_eq_self_iff.mp hnothing
    exact ⟨hne, fun c hc => htrimmed.head c (hhead ▸ hc), hlast hne ▸ hbracket⟩
  · rintro ⟨hne, hblank, hbracket⟩
    have hplain : IsPlain m.domain := isPlain_of_ofChars? h
    have hnothing : unbracket m.toText.toList = m.toText.toList := by
      refine unbracket_eq_self_iff.mpr ⟨⟨?_, ?_⟩, ?_, hlast hne ▸ hbracket⟩
      · exact fun c hc => hblank c (hhead ▸ hc)
      · exact fun c hc => hplain.noBlank c (List.mem_of_getLast? (hlast hne ▸ hc))
      · have := head?_unbracket_ne s.toList
        rwa [htext, List.head?_append_of_ne_nil _ hname, ← hhead] at this
    refine ofChars?_eq_some_iff.mpr ⟨m.name.toList, m.domain.toList, ?_, ?_, hname, ?_,
      hplain.noBlank, ?_⟩
    · rw [hnothing, toList_toText]
    · rw [hkept]
      exact fun hin =>
        hat ((dropEndWhile_isPrefix _ _).subset (mem_of_mem_lowerAscii (by decide) hin))
    · simpa using hne
    · rw [dropEndWhile_eq_self hplain.last, hplain.lower, String.ofList_toList,
        String.ofList_toList]

/-- **What is known of a mailbox that was read**: it has a name, its domain holds no blank and has
no dot at its end, but it may be empty; and which mailboxes their own texts are read as. -/
theorem parts_of_read (h : ofText? s = some m) :
    m.name ≠ "" ∧ (∀ c ∈ m.domain.toList, isBlank c = false) ∧
      m.domain.toList.getLast? ≠ some '.' ∧
      (m.domain = "" ↔ ∃ dots, unbracket s.toList = m.name.toList ++ '@' :: dots ∧
        ∀ c ∈ dots, c = '.') ∧
      (ofText? m.toText = some m ↔ m.domain ≠ "" ∧
        (∀ c, m.name.toList.head? = some c → isBlank c = false) ∧
        m.domain.toList.getLast? ≠ some '>') := by
  have hplain : IsPlain m.domain := isPlain_of_ofChars? h
  obtain ⟨_, -, -, hname, -⟩ := exists_of_ofText? h
  refine ⟨by simpa using hname, hplain.noBlank, ?_, domain_eq_empty_iff h, ofText?_toText_iff h⟩
  exact fun hdot => absurd (hplain.last '.' hdot) (by decide)

theorem parts_of_read_bracketed :
    let s := " <Ann@Home@Example.COM..> "
    let m : Mailbox := ⟨"Ann@Home", "example.com"⟩
    ofText? s = some m ∧ m.name ≠ "" ∧ (∀ c ∈ m.domain.toList, isBlank c = false) ∧
      m.domain.toList.getLast? ≠ some '.' ∧
      (m.domain = "" ↔ ∃ dots, unbracket s.toList = m.name.toList ++ '@' :: dots ∧
        ∀ c ∈ dots, c = '.') ∧
      (ofText? m.toText = some m ↔ m.domain ≠ "" ∧
        (∀ c, m.name.toList.head? = some c → isBlank c = false) ∧
        m.domain.toList.getLast? ≠ some '>') := by
  intro s m
  have h : ofText? s = some m := by decide +kernel
  exact ⟨h, parts_of_read h⟩

/-- **A mailbox without a domain**, and two that keep what is taken off another text: none of the
three is what its own text is read as. -/
theorem read_without_domain :
    (ofText? "u@" = none ∧ ofText? "u@." = some ⟨"u", ""⟩ ∧
      ofText? (Mailbox.mk "u" "").toText = none) ∧
    (ofText? "< u@b.c" = some ⟨" u", "b.c"⟩ ∧
      ofText? (Mailbox.mk " u" "b.c").toText = some ⟨"u", "b.c"⟩) ∧
    (ofText? "u@b.c>." = some ⟨"u", "b.c>"⟩ ∧
      ofText? (Mailbox.mk "u" "b.c>").toText = some ⟨"u", "b.c"⟩) := by
  decide +kernel

/-! ## A mailbox in the value of a field -/

/-- **The last pair of brackets** encloses what it encloses, whatever stands before it. -/
theorem bracketed?_enclosed (before : List Char) {text after : List Char} (htext : '<' ∉ text)
    (hopen : '<' ∉ after) (hclose : '>' ∉ after) :
    bracketed? (before ++ '<' :: (text ++ '>' :: after)) = some text := by
  have hinside : '<' ∉ text ++ '>' :: after := by simp [htext, hopen]
  have hfirst : cutLast (· == '<') (before ++ '<' :: (text ++ '>' :: after)) =
      some (before, text ++ '>' :: after) :=
    cutLast_append_cons (by decide) before (beq_false_of_not_mem hinside)
  have hsecond : cutLast (· == '>') (text ++ '>' :: after) = some (text, after) :=
    cutLast_append_cons (by decide) text (beq_false_of_not_mem hclose)
  rw [bracketed?, hfirst]
  show (cutLast (· == '>') (text ++ '>' :: after)).bind _ = _
  rw [hsecond]
  rfl

/-- **What stands before the brackets does not matter**: a mailbox that its own text is read as is
read from a field value that ends with that text in brackets, and the author of every message with
this value is of its domain. -/
theorem read_enclosed {m : Mailbox} (hback : ofText? m.toText = some m)
    (htext : '<' ∉ m.toText.toList) (before : String) {after : String}
    (hopen : '<' ∉ after.toList) (hclose : '>' ∉ after.toList) :
    ofFieldValue? (before ++ "<" ++ m.toText ++ ">" ++ after) = some m ∧
      ∀ message : Message,
        message.headers.get? "from" = some (before ++ "<" ++ m.toText ++ ">" ++ after) →
        message.author? = some m.domain := by
  have hvalue : ofFieldValue? (before ++ "<" ++ m.toText ++ ">" ++ after) = some m := by
    have hlist : (before ++ "<" ++ m.toText ++ ">" ++ after).toList =
        before.toList ++ '<' :: (m.toText.toList ++ '>' :: after.toList) := by simp
    rw [ofFieldValue?, hlist, bracketed?_enclosed before.toList htext hopen hclose]
    exact hback
  refine ⟨hvalue, fun message hmessage => ?_⟩
  rw [Message.author?, hmessage]
  show (ofFieldValue? _).map _ = _
  rw [hvalue, Option.map_some]

theorem read_enclosed_behind_others :
    let m : Mailbox := ⟨"ann", "example.org"⟩
    let before := "\"Bank <pay@bank.example>\" root@bank.example,\r\n <a@b.c> >< "
    let after := " (Ann)\r\n\t@bank.example"
    let message : Message := ⟨⟨[⟨"From", before ++ "<" ++ m.toText ++ ">" ++ after⟩]⟩, []⟩
    (ofText? m.toText = some m ∧ '<' ∉ m.toText.toList ∧ '<' ∉ after.toList ∧
      '>' ∉ after.toList ∧
      message.headers.get? "from" = some (before ++ "<" ++ m.toText ++ ">" ++ after)) ∧
    ofFieldValue? (before ++ "<" ++ m.toText ++ ">" ++ after) = some m ∧
      message.author? = some m.domain := by
  intro m before after message
  have h : ofText? m.toText = some m ∧ '<' ∉ m.toText.toList ∧ '<' ∉ after.toList ∧
      '>' ∉ after.toList ∧
      message.headers.get? "from" = some (before ++ "<" ++ m.toText ++ ">" ++ after) := by
    decide +kernel
  obtain ⟨hback, htext, hopen, hclose, hmessage⟩ := h
  have hread := read_enclosed hback htext before hopen hclose
  exact ⟨⟨hback, htext, hopen, hclose, hmessage⟩, hread.1, hread.2 message hmessage⟩

end Mailbox

end MailScreen.Mail
