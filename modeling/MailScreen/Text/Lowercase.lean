import MailScreen.Text.CaseTable

/-!
# Full lower case

Unicode's full lower-case mapping of a text, with the rule for the Greek sigma: a capital sigma
that ends a word becomes `ς`, any other becomes `σ`.

* `lowerFull` is the mapping.
* `lowerFull_nil` and `lowerFrom_cons` are its equations; a text of ASCII characters is mapped
  letter by letter.
-/

namespace MailScreen.Text

/-- Whether a code point lies in one of the ranges. -/
def inRanges (ranges : List (Nat × Nat)) (c : Char) : Bool :=
  ranges.any fun (first, last) => first ≤ c.toNat && c.toNat ≤ last

/-- Characters that the search for a cased neighbour passes over. -/
def isCaseIgnorable (c : Char) : Bool :=
  inRanges caseIgnorable c

/-- Characters that are upper, lower or title case and not passed over. -/
def isCased (c : Char) : Bool :=
  inRanges casedOnly c

/-- The simple lower case of a character. -/
def lowerChar (c : Char) : Char :=
  let n := c.toNat
  if n < 0x80 then c.toLower
  else
    match caseRanges.find? fun r => r.first ≤ n && n ≤ r.last && (n - r.first) % r.step == 0 with
    | some r => Char.ofNat (n + r.offset).toNat
    | none => c

/-- Whether the first character that is not ignorable is cased. -/
def casedAhead (cs : List Char) : Bool :=
  match cs.dropWhile isCaseIgnorable with
  | c :: _ => isCased c
  | [] => false

/-- The lower case of one character, given what stands before it (nearest first) and after it. -/
def lowerAt (before : List Char) (c : Char) (after : List Char) : List Char :=
  if c.toNat = 0x3A3 then
    [if casedAhead before && ! casedAhead after then 'ς' else 'σ']
  else if c.toNat = 0x130 then ['i', Char.ofNat 0x307]
  else [lowerChar c]

/-- The lower case of the text that stands after `before` (nearest first). -/
def lowerFrom (before : List Char) : List Char → List Char
  | [] => []
  | c :: cs => lowerAt before c cs ++ lowerFrom (c :: before) cs

/-- The full lower case of a text. -/
def lowerFull (cs : List Char) : List Char :=
  lowerFrom [] cs

/-- The full lower case of a string. -/
def lowerFullString (s : String) : String :=
  String.ofList (lowerFull s.toList)

@[simp]
theorem lowerFull_nil : lowerFull [] = [] := rfl

theorem lowerFrom_cons (before : List Char) (c : Char) (cs : List Char) :
    lowerFrom before (c :: cs) = lowerAt before c cs ++ lowerFrom (c :: before) cs := rfl

end MailScreen.Text
