import MailScreen.Text.Split

/-!
# Blank characters

White space as Unicode defines it (the property `White_Space`), and the two things that are done
with it: trimming and cutting into words.

* `isBlank` holds of 25 characters, among them all that `Char.isWhitespace` knows
  (`isBlank_of_isWhitespace`).
* `trim` removes blanks at both ends, `words` gives the maximal runs without a blank.
-/

namespace MailScreen.Text

/-- The characters of the Unicode property `White_Space`. -/
def isBlank (c : Char) : Bool :=
  let n := c.toNat
  (9 ≤ n && n ≤ 13) || n == 0x20 || n == 0x85 || n == 0xA0 || n == 0x1680 ||
    (0x2000 ≤ n && n ≤ 0x200A) || n == 0x2028 || n == 0x2029 || n == 0x202F || n == 0x205F ||
    n == 0x3000

theorem isBlank_of_isWhitespace {c : Char} (h : c.isWhitespace = true) : isBlank c = true := by
  simp only [Char.isWhitespace, Bool.or_eq_true, decide_eq_true_eq] at h
  rcases h with ((rfl | rfl) | rfl) | rfl <;> rfl

/-- Without blanks at either end. -/
def trim (cs : List Char) : List Char :=
  dropAround isBlank cs

/-- The maximal runs of characters that are not blank. -/
def words (cs : List Char) : List (List Char) :=
  (pieces isBlank cs).filter (! ·.isEmpty)

end MailScreen.Text
