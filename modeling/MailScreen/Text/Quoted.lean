import MailScreen.Text.Lowercase
import MailScreen.Text.HiddenTable
import MailScreen.Text.Hex

/-!
# Quoted text

Text that came from a remote peer is shown in double quotes, so that nothing in it can be taken
for the text around it: quotes and backslashes are escaped, and every character without a shown
form of its own is written by its code point.

* `quoted s` is the shown form.
* `quotedChar` gives the form of one character.
-/

namespace MailScreen.Text

/-- Whether a character has no shown form of its own. -/
def isHidden (c : Char) : Bool :=
  if 0x20 ≤ c.toNat && c.toNat < 0x7F then false else inRanges hiddenRanges c

/-- The form of one character between the quotes. -/
def quotedChar (c : Char) : List Char :=
  if c = '"' then ['\\', '"']
  else if c = '\\' then ['\\', '\\']
  else if c = '\t' then ['\\', 't']
  else if c = '\r' then ['\\', 'r']
  else if c = '\n' then ['\\', 'n']
  else if c.toNat = 0 then ['\\', '0']
  else if isHidden c then ['\\', 'u', '\x7b'] ++ Hex.ofNat c.toNat ++ ['\x7d']
  else [c]

/-- The text in double quotes. -/
def quoted (s : String) : String :=
  String.ofList ('"' :: s.toList.flatMap quotedChar ++ ['"'])

end MailScreen.Text
