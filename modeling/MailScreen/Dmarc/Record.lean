import MailScreen.Json.Record
import MailScreen.Text.Ascii
import MailScreen.Text.Blank
import MailScreen.Text.Lowercase

/-!
# Policies of author domains

Model of `DmarcRecord` and `parse_dmarc_record` (RFC 7489).

A domain publishes what is to be done with messages that claim to come from it and cannot be
authenticated, as a list of tags `name=value; …`.

* `Record.ofText` reads a policy. Of tags with one name the last counts; tags of unknown names are
  passed over.
* `Fault.message` gives the wording of the errors. Of several faults the one that stands first in
  the order of `Record.ofTags` is told.
-/

namespace MailScreen.Dmarc

open MailScreen.Text

/-- What is to be done with a message that fails. -/
inductive Policy where
  | none
  | quarantine
  | reject
  deriving Repr, DecidableEq

namespace Policy

/-- All policies. -/
def all : List Policy := [none, quarantine, reject]

/-- The name of the policy. -/
def name : Policy → String
  | none => "none"
  | quarantine => "quarantine"
  | reject => "reject"

/-- The policy of a name. -/
def ofName? (s : String) : Option Policy :=
  all.find? (·.name == s)

/-- Reads a policy name. -/
def ofJson? (v : Json.Value) : Option Policy :=
  (Json.caseName? v).bind ofName?

end Policy

/-- How near a domain must be to the author's. -/
inductive Alignment where
  /-- The same domain. -/
  | strict
  /-- A domain of the same organization. -/
  | relaxed
  deriving Repr, DecidableEq

/-- The letter that writes the alignment. -/
def Alignment.letter : Alignment → String
  | .strict => "s"
  | .relaxed => "r"

/-- A published policy. -/
structure Record where
  policy : Policy
  /-- The policy for subdomains, if it is another. -/
  subdomainPolicy : Option Policy
  percentage : Nat
  dkimAlignment : Alignment
  spfAlignment : Alignment
  aggregateReports : Option String
  failureReports : Option String
  failureOptions : String
  reportFormat : String
  /-- The time between reports, in seconds. -/
  reportInterval : Nat
  deriving Repr, DecidableEq

/-- A policy with everything else left out. -/
def Record.ofPolicy (p : Policy) : Record :=
  ⟨p, none, 100, .relaxed, .relaxed, none, none, "0", "afrf", 86400⟩

/-- What is wrong with a policy. -/
inductive Fault where
  | malformedTag (part : String)
  | invalidVersion
  | missingPolicy
  | invalidPolicy (value : String)
  | invalidPercentage (value : String)
  | invalidAlignment (value : String)
  | invalidInterval (value : String)
  deriving Repr, DecidableEq

/-- The wording of the fault. -/
def Fault.message : Fault → String
  | malformedTag part => "Malformed DMARC tag: " ++ part
  | invalidVersion => "Invalid DMARC version"
  | missingPolicy => "Missing required p= tag"
  | invalidPolicy value => "Invalid policy: " ++ value
  | invalidPercentage value => "Invalid pct value: " ++ value
  | invalidAlignment value => "Invalid alignment mode: " ++ value
  | invalidInterval value => "Invalid ri value: " ++ value

/-! ## Tags -/

/-- Names in lower case and values, in the order in which they were written. -/
abbrev Tags := List (String × String)

/-- The last value of a name. -/
def Tags.get? (t : Tags) (name : String) : Option String :=
  t.reverse.lookup name

/-- The name and value of a part between semicolons. -/
def tag (part : List Char) : Except Fault (String × String) :=
  match cutFirst (· == '=') part with
  | some (name, value) =>
    .ok (String.ofList (lowerFull (trim name)), String.ofList (trim value))
  | none => .error (.malformedTag (String.ofList part))

/-- Reads a list of tags. -/
def Tags.ofText (s : String) : Except Fault Tags :=
  (((pieces (· == ';') s.toList).map trim).filter (! ·.isEmpty)).mapM tag

/-! ## Policies -/

/-- Reads the name of a policy, whatever its letter case. -/
def readPolicy (value : String) : Except Fault Policy :=
  match Policy.ofName? (lowerFullString value) with
  | some p => .ok p
  | none => .error (.invalidPolicy value)

/-- Reads the letter of an alignment, whatever its letter case. -/
def readAlignment (value : String) : Except Fault Alignment :=
  match [Alignment.relaxed, Alignment.strict].find? (·.letter == lowerFullString value) with
  | some a => .ok a
  | none => .error (.invalidAlignment value)

/-- Reads a percentage. -/
def readPercentage (value : String) : Except Fault Nat :=
  match unsigned? 100 value.toList with
  | .ok n => .ok n
  | .error _ => .error (.invalidPercentage value)

/-- Reads a time between reports, a number of 32 bits. -/
def readInterval (value : String) : Except Fault Nat :=
  match unsigned? 4294967295 value.toList with
  | .ok n => .ok n
  | .error _ => .error (.invalidInterval value)

/-- Reads the value of a tag that may be absent. -/
def readOr {α : Type} (t : Tags) (name : String) (absent : α) (read : String → Except Fault α) :
    Except Fault α :=
  match t.get? name with
  | some value => read value
  | none => .ok absent

/-- Reads the policy that a domain must state. -/
def requiredPolicy (t : Tags) : Except Fault Policy :=
  match t.get? "p" with
  | some value => readPolicy value
  | none => .error .missingPolicy

namespace Record

/-- The policy that tags state. -/
def ofTags (t : Tags) : Except Fault Record := do
  if t.get? "v" ≠ some "DMARC1" then throw .invalidVersion
  let record := ofPolicy (← requiredPolicy t)
  let subdomainPolicy ← readOr t "sp" none fun value => (readPolicy value).map some
  let percentage ← readOr t "pct" record.percentage readPercentage
  let dkimAlignment ← readOr t "adkim" record.dkimAlignment readAlignment
  let spfAlignment ← readOr t "aspf" record.spfAlignment readAlignment
  let reportInterval ← readOr t "ri" record.reportInterval readInterval
  return { record with
    subdomainPolicy, percentage, dkimAlignment, spfAlignment, reportInterval
    aggregateReports := t.get? "rua"
    failureReports := t.get? "ruf"
    failureOptions := (t.get? "fo").getD record.failureOptions
    reportFormat := (t.get? "rf").getD record.reportFormat }

/-- Reads a policy. -/
def ofText (s : String) : Except Fault Record := do
  ofTags (← Tags.ofText s)

end Record

/-- Whether a text claims to be a policy. -/
def isCandidate (s : String) : Bool :=
  eqIgnoreCase ((s.toList.dropWhile isBlank).take 8) "v=DMARC1".toList

end MailScreen.Dmarc
