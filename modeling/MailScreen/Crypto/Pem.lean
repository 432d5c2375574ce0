import MailScreen.Text.Base64
import MailScreen.Text.Split

/-!
# PEM

A key file is text: Base64 in lines of 64 characters between a line that begins it and one that ends
it. What stands before the first of the two is ignored; nothing may follow the second but a line
end. Lines end in LF, CR, or both.

* `decode? label text` gives the bytes of a file of that label.
-/

namespace MailScreen.Crypto.Pem

open MailScreen.Text

/-- Without a line end at the front, which must be there. -/
def dropBreak? : List Char → Option (List Char)
  | '\r' :: '\n' :: rest => some rest
  | '\n' :: rest => some rest
  | '\r' :: rest => some rest
  | _ => none

/-- Without a line end at the end, which must be there. -/
def dropFinalBreak? (cs : List Char) : Option (List Char) :=
  match cs.reverse with
  | '\n' :: '\r' :: rest => some rest.reverse
  | '\n' :: rest => some rest.reverse
  | '\r' :: rest => some rest.reverse
  | _ => none

/-- What begins the first line of a file. -/
def opening : List Char := "-----BEGIN ".toList

/-- What begins the last line of a file. -/
def closing : List Char := "-----END ".toList

/-- What ends both lines. -/
def dashes : List Char := "-----".toList

/-- What follows the opening at the start of a line. -/
def afterOpening? : List Char → Option (List Char)
  | [] => none
  | c :: rest =>
    if c.toNat = 0 then none
    else if c = '\n' then
      match dropLead? opening rest with
      | some found => some found
      | none => afterOpening? rest
    else afterOpening? rest

/-- The lines between the first and the last, as one text. -/
def enclosed? (label : List Char) (cs : List Char) : Option (List Char) := do
  let body ← match dropLead? opening cs with
    | some found => some found
    | none => afterOpening? cs
  let body ← dropLead? (label ++ dashes) body
  let body ← dropBreak? body
  let body := (dropFinalBreak? body).getD body
  let body ← dropLead? (closing ++ label ++ dashes).reverse body.reverse
  dropFinalBreak? body.reverse

/-- The characters of lines of 64; only the last may be shorter. -/
def joinLines? : Nat → List Char → Option (List Char)
  | 0, _ => none
  | fuel + 1, cs =>
    if cs.length ≤ 64 then some cs
    else do
      let rest ← dropBreak? (cs.drop 64)
      return cs.take 64 ++ (← joinLines? fuel rest)

/-- The bytes of a file of this label. -/
def decode? (label : String) (text : String) : Option (List UInt8) := do
  let body ← enclosed? label.toList text.toList
  let code ← joinLines? (body.length + 1) body
  Base64.decodeGroups? code

end MailScreen.Crypto.Pem
