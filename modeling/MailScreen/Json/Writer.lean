import MailScreen.Json.Value
import MailScreen.Text.Hex

/-!
# Writing JSON

Values are written on one line without blanks.

* `escapeChar` writes a character inside a string: quotes, backslashes and control characters are
  escaped, all others stand for themselves.
* `Value.write` writes a value. Nothing it writes holds a line feed.
-/

namespace MailScreen.Json

open MailScreen.Text

/-- A character inside a string. -/
def escapeChar (c : Char) : List Char :=
  if c = '"' then ['\\', '"']
  else if c = '\\' then ['\\', '\\']
  else if c = '\n' then ['\\', 'n']
  else if c = '\r' then ['\\', 'r']
  else if c = '\t' then ['\\', 't']
  else if c = '\x08' then ['\\', 'b']
  else if c = '\x0c' then ['\\', 'f']
  else if c.toNat < 0x20 then
    ['\\', 'u', '0', '0', Hex.digit (c.toNat / 16), Hex.digit (c.toNat % 16)]
  else [c]

/-- A string with its quotes. -/
def writeString (s : String) : List Char :=
  '"' :: s.toList.flatMap escapeChar ++ ['"']

mutual

/-- The written form of a value; a string that is no text is written as an empty one. -/
def writeChars : Value → List Char
  | .null => "null".toList
  | .bool b => if b then "true".toList else "false".toList
  | .number literal => literal.toList
  | .text s => writeString s
  | .brokenText => writeString ""
  | .array items => '[' :: writeItems items ++ [']']
  | .object members => '\x7b' :: writeMembers members ++ ['\x7d']

/-- Values with a comma between two of them. -/
def writeItems : List Value → List Char
  | [] => []
  | [v] => writeChars v
  | v :: vs => writeChars v ++ ',' :: writeItems vs

/-- Members with a comma between two of them. -/
def writeMembers : List (Option String × Value) → List Char
  | [] => []
  | [(name, v)] => writeString (name.getD "") ++ ':' :: writeChars v
  | (name, v) :: rest =>
    writeString (name.getD "") ++ ':' :: writeChars v ++ ',' :: writeMembers rest

end

/-- The written form of a value. -/
def Value.write (v : Value) : String :=
  String.ofList (writeChars v)

end MailScreen.Json
