import MailScreen.Mail.Message
import MailScreen.Proofs.Text.Collapse

/-!
# What the author depends on

The domain of the author is read out of the value of a field. Blanks in that value may be exchanged
for others, and runs of them for shorter ones, without a change to the domain.

* `fieldDomain?` is the domain of the mailbox in the value of a field.
* `fieldDomain?_collapse`: it stays if every run of blanks becomes one space.
* `fieldDomain?_trim`: it does not depend on the blanks at the ends.
-/

namespace MailScreen.Mail

open MailScreen.Text

/-- The domain of the mailbox in the value of a field. -/
def fieldDomain? (value : List Char) : Option String :=
  (Mailbox.ofFieldValue? (String.ofList value)).map (·.domain)

theorem author?_eq (m : Message) :
    m.author? = (m.headers.get? "from").bind fun value => fieldDomain? value.toList := by
  rw [Message.author?]
  cases m.headers.get? "from" with
  | none => rfl
  | some value =>
    show _ = fieldDomain? value.toList
    rw [fieldDomain?, String.ofList_toList]
    rfl

/-- A mark that divides mailboxes is no blank. -/
theorem not_isBlank_of_beq {d : Char} (hd : isBlank d = false) :
    ∀ c, (c == d) = true → isBlank c = false := by
  intro c hc
  rw [eq_of_beq hc]
  exact hd

namespace Mailbox

/-! ## One space for every run of blanks -/

theorem unbracket_collapse (cs : List Char) :
    DomainName.unbracket (collapse cs) = collapse (DomainName.unbracket cs) := by
  rw [DomainName.unbracket, DomainName.unbracket, trim_collapse,
    dropWhile_collapse (not_isBlank_of_beq (by decide)),
    dropEndWhile_collapse (not_isBlank_of_beq (by decide))]

/-- The domain of a mailbox stays, although the name before it may change. -/
theorem domain_ofChars?_collapse (cs : List Char) :
    (ofChars? (collapse cs)).map (·.domain) = (ofChars? cs).map (·.domain) := by
  rw [ofChars?, ofChars?, unbracket_collapse, cutLast_collapse (not_isBlank_of_beq (by decide))]
  cases cutLast (· == '@') (DomainName.unbracket cs) with
  | none => rfl
  | some ab =>
    obtain ⟨name, domain⟩ := ab
    have hempty : ∀ as : List Char, (collapse as).isEmpty = as.isEmpty := fun as => by
      rw [Bool.eq_iff_iff, List.isEmpty_iff, List.isEmpty_iff, collapse_eq_nil_iff]
    simp only [Option.map_some, hempty, any_isBlank_collapse]
    cases hblank : domain.any isBlank with
    | true => simp
    | false =>
      have hplain : ∀ c ∈ domain, isBlank c = false := by simpa using hblank
      rw [collapse_eq_self hplain]
      split <;> rfl

theorem bracketed?_collapse (cs : List Char) :
    bracketed? (collapse cs) = (bracketed? cs).map collapse := by
  unfold bracketed?
  rw [cutLast_collapse (not_isBlank_of_beq (by decide))]
  cases cutLast (· == '<') cs with
  | none => rfl
  | some ab =>
    show (cutLast (· == '>') (collapse ab.2)).bind _ =
      ((cutLast (· == '>') ab.2).bind _).map collapse
    rw [cutLast_collapse (not_isBlank_of_beq (by decide))]
    cases cutLast (· == '>') ab.2 <;> rfl

/-! ## A blank at the ends -/

variable {c : Char}

theorem bracketed?_blank_cons (hc : isBlank c = true) (cs : List Char) :
    bracketed? (c :: cs) = bracketed? cs := by
  unfold bracketed?
  rw [cutLast_cons_of_not (not_of_isBlank (not_isBlank_of_beq (by decide)) hc)]
  cases cutLast (· == '<') cs <;> rfl

theorem bracketed?_concat_blank (hc : isBlank c = true) (cs : List Char) :
    bracketed? (cs ++ [c]) = bracketed? cs := by
  unfold bracketed?
  rw [cutLast_concat_of_not (not_of_isBlank (not_isBlank_of_beq (by decide)) hc)]
  cases cutLast (· == '<') cs with
  | none => rfl
  | some ab =>
    show (cutLast (· == '>') (ab.2 ++ [c])).bind _ = (cutLast (· == '>') ab.2).bind _
    rw [cutLast_concat_of_not (not_of_isBlank (not_isBlank_of_beq (by decide)) hc)]
    cases cutLast (· == '>') ab.2 <;> rfl

end Mailbox

/-- **One space for every run of blanks** leaves the domain as it is. -/
theorem fieldDomain?_collapse (value : List Char) :
    fieldDomain? (collapse value) = fieldDomain? value := by
  rw [fieldDomain?, fieldDomain?, Mailbox.ofFieldValue?, Mailbox.ofFieldValue?,
    String.toList_ofList, String.toList_ofList, Mailbox.bracketed?_collapse, words_collapse]
  cases Mailbox.bracketed? value with
  | none => rfl
  | some text => exact Mailbox.domain_ofChars?_collapse text

/-- **Blanks at the ends** do not matter. -/
theorem fieldDomain?_trim (value : List Char) : fieldDomain? (trim value) = fieldDomain? value := by
  apply apply_trim
  · intro c cs hc
    simp only [fieldDomain?, Mailbox.ofFieldValue?, String.toList_ofList,
      Mailbox.bracketed?_blank_cons hc, words_blank_cons hc]
  · intro c cs hc
    simp only [fieldDomain?, Mailbox.ofFieldValue?, String.toList_ofList,
      Mailbox.bracketed?_concat_blank hc, words_concat_blank hc]

end MailScreen.Mail
