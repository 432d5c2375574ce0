import MailScreen.DomainName

/-!
# Organizational domains

Model of `organizational_domain`. The list of public suffixes that it asks is not part of the
program; `Registry.registrable?` stands for the question.

Names are sold directly below public suffixes, so a public suffix and one label more name an
organization. Which names are public suffixes is laid down by the registries and changes over the
years; nothing here depends on it, and a `Registry` is asked where it has to be known.

* `Registry.organizational` is a name cut to its suffix and one label more. A name that is itself a
  suffix stays as it is.
* `Registry.ofRules` is the registry of a list of suffix rules: plain ones, wildcards, and
  exceptions to wildcards. An exception decides at once, else the longest rule that matches; with no
  rule the last label is the suffix.
-/

namespace MailScreen

/-- What is known of public suffixes. -/
structure Registry where
  /-- The public suffix and one label more, of a name in normal form; none if the name is itself a
  public suffix. -/
  registrable? : String → Option String

namespace Registry

/-- The organizational domain of a name. -/
def organizational (reg : Registry) (s : String) : String :=
  let name := DomainName.normalize s
  (reg.registrable? name).getD name

/-- A rule about the last labels of a name, which are listed from right to left. -/
inductive Rule where
  /-- The labels are a public suffix. -/
  | suffix (labels : List String)
  /-- Any label before the labels makes a public suffix with them. -/
  | wildcard (labels : List String)
  /-- The labels without the leftmost are the public suffix, against a wildcard. -/
  | exception (labels : List String)
  deriving Repr, DecidableEq

namespace Rule

/-- The number of labels of the suffix by this rule, if it matches; the labels of the name are
listed from right to left. -/
def match? (name : List (List Char)) : Rule → Option Nat
  | suffix labels =>
    if (labels.map String.toList).isPrefixOf name then some labels.length else none
  | wildcard labels =>
    if (labels.map String.toList).isPrefixOf name ∧ labels.length < name.length then
      some (labels.length + 1)
    else none
  | exception labels =>
    if (labels.map String.toList).isPrefixOf name then some (labels.length - 1) else none

/-- Whether a rule is an exception. -/
def isException : Rule → Bool
  | exception _ => true
  | _ => false

end Rule

/-- The number of labels of the public suffix by some rules; the labels of the name are listed from
right to left. -/
def suffixLength (rules : List Rule) (name : List (List Char)) : Nat :=
  match (rules.filter Rule.isException).findSome? (Rule.match? name) with
  | some n => n
  | none => (rules.filterMap (Rule.match? name)).foldl max 1

/-- The registry of a list of rules. -/
def ofRules (rules : List Rule) : Registry where
  registrable? s :=
    let name := (DomainName.labels s.toList).reverse
    let length := suffixLength rules name
    if length < name.length then
      some (String.ofList (['.'].intercalate (name.take (length + 1)).reverse))
    else none

end Registry

end MailScreen
