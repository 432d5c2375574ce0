import MailScreen.Ip.Address
import MailScreen.Time

/-!
# Lookups

Model of `DnsError` and of the interface `DnsResolver`.

The checkers ask for three kinds of records. A resolver answers, after some time, with records or
with an error; what it answers may depend on what it has been asked before.

* `Query` names a lookup, `LookupError` says why one gave no records.
* Only `LookupError.notFound` is an answer about the name; all others are transient.
* `Resolver` is any way to answer.
-/

namespace MailScreen.Dns

/-- A lookup of the records of one kind at a name. -/
inductive Query where
  | txt (name : String)
  | ip (name : String)
  | mx (name : String)
  deriving Repr, DecidableEq

namespace Query

/-- The kind of the lookup and its name. -/
def toText : Query → String
  | txt name => "TXT " ++ name
  | ip name => "IP " ++ name
  | mx name => "MX " ++ name

end Query

/-- Why a lookup gave no records. -/
inductive LookupError where
  | notFound
  | timeout
  | cancelled
  | failure (what : String)
  deriving Repr, DecidableEq

namespace LookupError

/-- The wording of the error. -/
def message : LookupError → String
  | notFound => "no records found"
  | timeout => "DNS timeout"
  | cancelled => "DNS lookup cancelled"
  | failure what => "DNS failure: " ++ what

/-- Whether a later lookup may give records. -/
def isTransient (e : LookupError) : Bool :=
  e != notFound

end LookupError

/-- A host that takes mail, and its preference; lower ones come first. -/
structure Exchange where
  preference : Nat
  host : String
  deriving Repr, DecidableEq

/-- What a lookup comes to, and how long that takes. -/
structure Response (α : Type) where
  delay : Nat
  answer : Except LookupError α

/-- A way to answer lookups; the first argument holds the earlier lookups, newest first. -/
structure Resolver where
  txt : List Query → String → Response (List String)
  ip : List Query → String → Response (List Ip.Address)
  mx : List Query → String → Response (List Exchange)

/-- The resolver of a program without a network: every lookup fails. -/
def Resolver.unreachable (what : String) : Resolver where
  txt _ _ := ⟨0, .error (.failure what)⟩
  ip _ _ := ⟨0, .error (.failure what)⟩
  mx _ _ := ⟨0, .error (.failure what)⟩

end MailScreen.Dns
