import MailScreen.Text.Ascii
import MailScreen.Text.Split

/-!
# Dates and times of a TOML text

No setting is a date, but a text may hold one, and it has to be well formed.

* `isDate` wants a day that exists, `isTime` a time of day, which may be the leap second.
* `isMoment` wants a date, a time, or both with or without an offset.
-/

namespace MailScreen.Toml

open MailScreen.Text

/-- The number that exactly `count` digits write. -/
def fixed? (count : Nat) (cs : List Char) : Option Nat :=
  if cs.length = count then digitsValue? cs else none

/-- How many days a month has. -/
def daysOf (year month : Nat) : Nat :=
  if month = 2 then
    if year % 4 = 0 ∧ (year % 100 ≠ 0 ∨ year % 400 = 0) then 29 else 28
  else if month ∈ [4, 6, 9, 11] then 30 else 31

/-- Whether a text is a day that exists. -/
def isDate (cs : List Char) : Bool :=
  match (pieces (· == '-') cs) with
  | [y, m, d] =>
    match fixed? 4 y, fixed? 2 m, fixed? 2 d with
    | some year, some month, some day =>
      1 ≤ month && month ≤ 12 && 1 ≤ day && day ≤ daysOf year month
    | _, _, _ => false
  | _ => false

/-- Whether exactly two digits write a number up to a bound. -/
def isUpTo (bound : Nat) (cs : List Char) : Bool :=
  (fixed? 2 cs).any (· ≤ bound)

/-- Whether a text is a second, with or without a fraction. -/
def isSecond (cs : List Char) : Bool :=
  match cutFirst (· == '.') cs with
  | none => isUpTo 60 cs
  | some (whole, places) => isUpTo 60 whole && !places.isEmpty && places.all Char.isDigit

/-- Whether a text is a time of day. -/
def isTime (cs : List Char) : Bool :=
  match pieces (· == ':') cs with
  | [h, m, s] => isUpTo 23 h && isUpTo 59 m && isSecond s
  | _ => false

/-- Whether a text is an offset, without its sign. -/
def isOffset (cs : List Char) : Bool :=
  match pieces (· == ':') cs with
  | [h, m] => isUpTo 23 h && isUpTo 59 m
  | _ => false

/-- Whether a text is a time of day, with or without an offset. -/
def isTimeWithOffset (cs : List Char) : Bool :=
  let isMark := fun c => c == '+' || c == '-' || c == 'Z' || c == 'z'
  let time := cs.takeWhile (!isMark ·)
  isTime time &&
    match cs.dropWhile (!isMark ·) with
    | [] => true
    | ['Z'] | ['z'] => true
    | sign :: offset => (sign == '+' || sign == '-') && isOffset offset

/-- Whether a text is a date, a time, or both. -/
def isMoment (cs : List Char) : Bool :=
  match cutFirst (fun c => c == 'T' || c == 't' || c == ' ') cs with
  | none => isDate cs || isTime cs
  | some (date, time) => isDate date && isTimeWithOffset time

end MailScreen.Toml
