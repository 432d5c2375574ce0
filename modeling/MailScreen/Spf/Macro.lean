import MailScreen.DomainName
import MailScreen.Ip.Address
import MailScreen.Text.Hex

/-!
# Macros

Model of `expand_macros` and `expand_macro` (RFC 7208).

Names in a policy may hold macros such as `%{ir}`, which stand for facts of the check.

* `Facts.value?` is the value of a macro letter.
* `transform?` applies what follows the letter: how many parts to keep, whether to reverse them,
  and where to cut.
* `expand?` expands a name and brings it into normal form; `none` means that it is malformed.
-/

namespace MailScreen.Spf

open MailScreen.Text

/-- What macros can stand for. -/
structure Facts where
  client : Ip.Address
  /-- The part of the sender before the `@`. -/
  sender : String
  senderDomain : String
  helo : String
  /-- The domain whose policy is being evaluated. -/
  domain : String
  deriving Repr, DecidableEq

/-- The 32 hexadecimal digits of an IPv6 address, high digit first. -/
def nibbles (bits : BitVec 128) : List Char :=
  (List.range 32).map fun i => Hex.digit ((bits >>> (4 * (31 - i))).toNat % 16)

/-- The address in macros: dotted decimal, or all hexadecimal digits with dots between them. -/
def addressText : Ip.Address → List Char
  | .v4 bits => Ip.Address.dotted bits
  | .v6 bits => ['.'].intercalate ((nibbles bits).map ([·]))

/-- The value of a macro letter of either case. -/
def Facts.value? (f : Facts) (letter : Char) : Option (List Char) :=
  match letter.toLower with
  | 's' => some (f.sender.toList ++ '@' :: f.senderDomain.toList)
  | 'l' => some f.sender.toList
  | 'o' => some f.senderDomain.toList
  | 'd' => some f.domain.toList
  | 'h' => some f.helo.toList
  | 'i' => some (addressText f.client)
  | 'v' =>
    match f.client with
    | .v4 _ => some "in-addr".toList
    | .v6 _ => some "ip6".toList
  | _ => none

/-- The characters at which a value may be cut. -/
def isDelimiter (c : Char) : Bool :=
  ['.', '-', '+', ',', '/', '_', '='].contains c

/-- How many of the last parts to keep: nothing written means all; zero and numbers that do not fit
64 bits are malformed. -/
def keepCount? (digits : List Char) : Option (Option Nat) :=
  if digits.isEmpty then some none
  else
    match digitsValue? digits with
    | some n => if 0 < n ∧ n < 18446744073709551616 then some (some n) else none
    | none => none

/-- Applies digits, an optional `r` and delimiters to a value. -/
def transform? (value rest : List Char) : Option (List Char) :=
  let digits := rest.takeWhile Char.isDigit
  let tail := rest.dropWhile Char.isDigit
  let reversed := tail.head? == some 'r' || tail.head? == some 'R'
  let delimiters := if reversed then tail.drop 1 else tail
  if delimiters.all isDelimiter then
    let delimiters := if delimiters.isEmpty then ['.'] else delimiters
    let parts := pieces (delimiters.contains ·) value
    let parts := if reversed then parts.reverse else parts
    match keepCount? digits with
    | none => none
    | some none => some (['.'].intercalate parts)
    | some (some n) => some (['.'].intercalate (parts.drop (parts.length - n)))
  else none

/-- What stands between the braces of a macro, expanded. -/
def Facts.macroText? (f : Facts) : List Char → Option (List Char)
  | [] => none
  | letter :: rest => (f.value? letter).bind (transform? · rest)

/-- Expands a text that is read inside braces (`some` of what was read since the opening brace) or
outside of them (`none`). -/
def Facts.expandFrom? (f : Facts) : Option (List Char) → List Char → Option (List Char)
  | none, [] => some []
  | some _, [] => none
  | some body, c :: rest =>
    if c = '\x7d' then do
      let text ← f.macroText? body
      return text ++ (← f.expandFrom? none rest)
    else f.expandFrom? (some (body ++ [c])) rest
  | none, '%' :: c :: rest =>
    match c with
    | '%' => (f.expandFrom? none rest).map ('%' :: ·)
    | '_' => (f.expandFrom? none rest).map (' ' :: ·)
    | '-' => (f.expandFrom? none rest).map (['%', '2', '0'] ++ ·)
    | '\x7b' => f.expandFrom? (some []) rest
    | _ => none
  | none, c :: rest => if c = '%' then none else (f.expandFrom? none rest).map (c :: ·)

/-- Expands a name and brings it into normal form. -/
def Facts.expand? (f : Facts) (spec : String) : Option String :=
  (f.expandFrom? none spec.toList).map fun cs => String.ofList (DomainName.normalizeChars cs)

end MailScreen.Spf
