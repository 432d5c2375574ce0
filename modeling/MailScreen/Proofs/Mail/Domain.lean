import MailScreen.Mail.Message
import MailScreen.Proofs.Text.Ascii

/-!
# The domain of a mailbox

A domain is put into normal form more than once on its way through a check. One that was read from a
mailbox is not changed by that: it is in normal form already and holds no blank.

* `Mailbox.ofChars?_eq_some_iff`: which texts are read as a mailbox, and as which one.
* `IsPlain` is what readers of mailboxes say of a domain: `isPlain_of_ofChars?`, and
  `isPlain_author?` for the author of a message.
* `normalize_of_isPlain`: such a domain is its own normal form.
* `mem_of_mem_normalize`: the normal form of any text holds no separator that the text does not
  hold.
-/

namespace MailScreen.DomainName

open MailScreen.Text

/-- The normal form of any text holds no separator that is not in the text. -/
theorem mem_of_mem_normalize {s : String} {d : Char} (hd : d.toNat < 97)
    (h : d ∈ (normalize s).toList) : d ∈ s.toList := by
  rw [normalize, String.toList_ofList] at h
  have hstripped := mem_of_mem_lowerAscii hd h
  exact mem_of_mem_trim ((dropEndWhile_isPrefix _ _).subset hstripped)

theorem ne_dot_of_getLast? {cs : List Char} {c : Char}
    (h : (lowerAscii (dropEndWhile (· == '.') cs)).getLast? = some c) : (c == '.') = false := by
  rw [lowerAscii, List.getLast?_map] at h
  obtain ⟨b, hb, rfl⟩ := Option.map_eq_some_iff.mp h
  have hdot := getLast?_dropEndWhile_not _ _ hb
  refine beq_false_of_ne fun h => ?_
  rw [eq_of_toLower_eq (by decide) h] at hdot
  exact Bool.noConfusion hdot

/-- No blank, no dot at the end, no letter in upper case. -/
structure IsPlain (domain : String) : Prop where
  noBlank : ∀ c ∈ domain.toList, isBlank c = false
  last : ∀ c, domain.toList.getLast? = some c → (c == '.') = false
  lower : lowerAscii domain.toList = domain.toList

/-- A plain domain is its own normal form. -/
theorem normalize_of_isPlain {domain : String} (h : IsPlain domain) :
    normalize domain = domain := by
  rw [normalize, normalizeChars, stripped, trim_eq_self (trimmed_of_no_blank h.noBlank),
    dropEndWhile_eq_self h.last, h.lower, String.ofList_toList]

end MailScreen.DomainName

namespace MailScreen.Mail

open MailScreen.Text DomainName

namespace Mailbox

/-- **A text that is read as a mailbox**: without blanks and brackets around, it is the name, the
last `@` and a domain, neither of them empty and the domain without a blank. -/
theorem ofChars?_eq_some_iff {cs : List Char} {m : Mailbox} :
    ofChars? cs = some m ↔ ∃ name domain, unbracket cs = name ++ '@' :: domain ∧ '@' ∉ domain ∧
      name ≠ [] ∧ domain ≠ [] ∧ (∀ c ∈ domain, isBlank c = false) ∧
      m = ⟨String.ofList name, String.ofList (lowerAscii (dropEndWhile (· == '.') domain))⟩ := by
  constructor
  · intro h
    unfold ofChars? at h
    split at h
    · cases h
    · rename_i name domain hcut
      obtain ⟨c, hc, hlast, htext⟩ := cutLast_eq_some_iff.mp hcut
      obtain rfl := eq_of_beq hc
      split at h
      · cases h
      · rename_i hparts
        simp only [Bool.or_eq_true, not_or, Bool.not_eq_true, List.any_eq_false,
          List.isEmpty_iff] at hparts
        exact ⟨name, domain, htext, fun hat => by simpa using hlast '@' hat, hparts.1.1,
          hparts.1.2, hparts.2, (Option.some.inj h).symm⟩
  · rintro ⟨name, domain, htext, hat, hname, hdomain, hblank, rfl⟩
    have hparts : (name.isEmpty || domain.isEmpty || domain.any isBlank) = false := by
      simpa [hname, hdomain] using hblank
    have hcut : cutLast (· == '@') (name ++ '@' :: domain) = some (name, domain) :=
      cutLast_append_cons (by decide) name (beq_false_of_not_mem hat)
    simp only [ofChars?, htext, hcut, hparts, Bool.false_eq_true, if_false]

/-- **The domain of a mailbox that was read** is plain. -/
theorem isPlain_of_ofChars? {cs : List Char} {m : Mailbox} (h : ofChars? cs = some m) :
    IsPlain m.domain := by
  obtain ⟨name, domain, -, -, -, -, hblank, rfl⟩ := ofChars?_eq_some_iff.mp h
  constructor
  · intro c hc
    rw [String.toList_ofList] at hc
    obtain ⟨b, hb, rfl⟩ := List.mem_map.mp hc
    rw [isBlank_toLower]
    exact hblank b ((dropEndWhile_isPrefix _ _).subset hb)
  · intro c hc
    rw [String.toList_ofList] at hc
    exact ne_dot_of_getLast? hc
  · rw [String.toList_ofList, lowerAscii_lowerAscii]

theorem isPlain_of_ofFieldValue? {s : String} {m : Mailbox} (h : ofFieldValue? s = some m) :
    IsPlain m.domain := by
  unfold ofFieldValue? at h
  split at h
  · exact isPlain_of_ofChars? h
  · obtain ⟨word, _, hword⟩ := List.exists_of_findSome?_eq_some h
    exact isPlain_of_ofChars? hword

end Mailbox

/-- **The domain of the author** is plain. -/
theorem Message.isPlain_author? {m : Message} {domain : String} (h : m.author? = some domain) :
    IsPlain domain := by
  obtain ⟨mailbox, hmailbox, rfl⟩ := Option.map_eq_some_iff.mp h
  obtain ⟨value, _, hvalue⟩ := Option.bind_eq_some_iff.mp hmailbox
  exact Mailbox.isPlain_of_ofFieldValue? hvalue

end MailScreen.Mail
