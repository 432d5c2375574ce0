import MailScreen.Dns.Lookup
import MailScreen.Text.Ascii
import MailScreen.Text.Split

/-!
# Zones

Model of `StaticResolver`.

A zone is a fixed set of records, kept in memory.

* `Zone.key` is the form in which names are compared: letters in lower case, no dots at the end.
  Blanks are part of a name.
* `Zone.addText`, `addAddress`, `addExchange` add a record after those of the same name,
  `addFault` makes every lookup of a name fail.
* `Zone.resolver` answers from the zone; all its answers take the same time.
-/

namespace MailScreen.Dns

/-- Records by key, in the order in which they were added. -/
structure Zone where
  texts : List (String × String)
  addresses : List (String × Ip.Address)
  exchanges : List (String × Exchange)
  faults : List (String × LookupError)
  delay : Nat
  deriving Repr, DecidableEq

namespace Zone

/-- No records, answered at once. -/
def empty : Zone := ⟨[], [], [], [], 0⟩

/-- The form in which names are compared. -/
def key (name : String) : String :=
  String.ofList (Text.lowerAscii (Text.dropEndWhile (· == '.') name.toList))

/-- Adds a text. -/
def addText (z : Zone) (name text : String) : Zone :=
  { z with texts := z.texts ++ [(key name, text)] }

/-- Adds an address. -/
def addAddress (z : Zone) (name : String) (a : Ip.Address) : Zone :=
  { z with addresses := z.addresses ++ [(key name, a)] }

/-- Adds a host that takes mail. -/
def addExchange (z : Zone) (name : String) (preference : Nat) (host : String) : Zone :=
  { z with exchanges :=
      z.exchanges ++ [(key name, ⟨preference, key host⟩)] }

/-- Makes lookups of a name fail; the latest fault of a name counts. -/
def addFault (z : Zone) (name : String) (e : LookupError) : Zone :=
  { z with faults := (key name, e) :: z.faults }

/-- The values at a key. -/
def valuesAt {α : Type} (records : List (String × α)) (k : String) : List α :=
  (records.filter (·.1 == k)).map (·.2)

/-- The answer to a lookup among these records. -/
def answer {α : Type} (z : Zone) (records : List (String × α)) (name : String) :
    Except LookupError (List α) :=
  match z.faults.lookup (key name), valuesAt records (key name) with
  | some e, _ => .error e
  | none, [] => .error .notFound
  | none, values => .ok values

/-- Answers lookups from the zone. -/
def resolver (z : Zone) : Resolver where
  txt _ name := ⟨z.delay, z.answer z.texts name⟩
  ip _ name := ⟨z.delay, z.answer z.addresses name⟩
  mx _ name := ⟨z.delay, z.answer z.exchanges name⟩

end Zone

end MailScreen.Dns
