import MailScreen.Toml.Chars

/-!
# Strings of a TOML text

There are four kinds: with double quotes, in which a backslash begins an escape, or with single
quotes, in which every character stands for itself; and both of them on one line or, with three
quotes at each end, on several.

* `string?` reads a string of any kind, `lineString?` one of the kinds for one line.
* `blockBody` and `rawBlockBody` read strings on several lines. The end of a line becomes a line
  feed. A backslash at the end of a line leaves out the line's end and all blanks and empty lines
  after it.
-/

namespace MailScreen.Toml

/-- A character in front of what a reader has read. -/
def push (c : Char) (r : Option (List Char × List Char)) : Option (List Char × List Char) :=
  r.map fun (cs, rest) => (c :: cs, rest)

/-- A string with double quotes after the opening one. -/
def body : List Char → Option (List Char × List Char)
  | [] => none
  | '"' :: rest => some ([], rest)
  | '\\' :: 'u' :: a :: b :: c :: d :: rest =>
    (scalar? [a, b, c, d]).bind fun x => push x (body rest)
  | '\\' :: 'U' :: a :: b :: c :: d :: e :: f :: g :: h :: rest =>
    (scalar? [a, b, c, d, e, f, g, h]).bind fun x => push x (body rest)
  | '\\' :: e :: rest => (escaped? e).bind fun x => push x (body rest)
  | c :: rest => if isPlain c && c != '\\' then push c (body rest) else none

/-- A string with single quotes after the opening one. -/
def rawBody : List Char → Option (List Char × List Char)
  | [] => none
  | '\'' :: rest => some ([], rest)
  | c :: rest => if isPlain c then push c (rawBody rest) else none

/-- The end of a string on several lines: three quotes, before which up to two may stand as
characters. Gives these and the text after the string. -/
def closing? (quote : Char) (cs : List Char) : Option (List Char × List Char) :=
  let run := (cs.takeWhile (· == quote)).length
  if run < 3 then none
  else some (List.replicate (min run 5 - 3) quote, cs.drop (min run 5))

/-- Where a reader of a string on several lines is. -/
inductive Place where
  | inText
  /-- After a backslash, where only blanks may come before the end of the line. -/
  | beforeLineEnd
  /-- After such an end of a line, where blanks and empty lines are left out. -/
  | afterLineEnd
  deriving Repr, DecidableEq

/-- Whether a backslash before this text is the last thing on its line. -/
def endsLine (cs : List Char) : Bool :=
  (lineEnd? (skipBlanks cs)).isSome

/-- A string with double quotes on several lines, after the opening ones. -/
def blockBody : Place → List Char → Option (List Char × List Char)
  | _, [] => none
  | .beforeLineEnd, '\n' :: rest => blockBody .afterLineEnd rest
  | .beforeLineEnd, _ :: rest => blockBody .beforeLineEnd rest
  | place, '\r' :: '\n' :: rest =>
    if place = .afterLineEnd then blockBody place rest else push '\n' (blockBody .inText rest)
  | .afterLineEnd, '\n' :: rest => blockBody .afterLineEnd rest
  | .afterLineEnd, ' ' :: rest => blockBody .afterLineEnd rest
  | .afterLineEnd, '\t' :: rest => blockBody .afterLineEnd rest
  | _, '\n' :: rest => push '\n' (blockBody .inText rest)
  | _, '\\' :: 'u' :: a :: b :: c :: d :: rest =>
    (scalar? [a, b, c, d]).bind fun x => push x (blockBody .inText rest)
  | _, '\\' :: 'U' :: a :: b :: c :: d :: e :: f :: g :: h :: rest =>
    (scalar? [a, b, c, d, e, f, g, h]).bind fun x => push x (blockBody .inText rest)
  | _, '\\' :: e :: rest =>
    if endsLine (e :: rest) then blockBody .beforeLineEnd (e :: rest)
    else (escaped? e).bind fun x => push x (blockBody .inText rest)
  | _, c :: rest =>
    match closing? '"' (c :: rest) with
    | some found => some found
    | none => if isPlain c then push c (blockBody .inText rest) else none

/-- A string with single quotes on several lines, after the opening ones. -/
def rawBlockBody : List Char → Option (List Char × List Char)
  | [] => none
  | '\r' :: '\n' :: rest => push '\n' (rawBlockBody rest)
  | '\n' :: rest => push '\n' (rawBlockBody rest)
  | c :: rest =>
    match closing? '\'' (c :: rest) with
    | some found => some found
    | none => if isPlain c then push c (rawBlockBody rest) else none

/-- The text of a string on several lines; an end of a line right at its beginning does not
count. -/
def afterOpening (cs : List Char) : List Char :=
  (lineEnd? cs).getD cs

/-- Reads a string on one line. -/
def lineString? : List Char → Option (List Char × List Char)
  | '"' :: rest => body rest
  | '\'' :: rest => rawBody rest
  | _ => none

/-- Reads a string. -/
def string? : List Char → Option (List Char × List Char)
  | '"' :: '"' :: '"' :: rest => blockBody .inText (afterOpening rest)
  | '\'' :: '\'' :: '\'' :: rest => rawBlockBody (afterOpening rest)
  | cs => lineString? cs

end MailScreen.Toml
