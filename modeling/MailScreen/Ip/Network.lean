import MailScreen.Ip.Reader

/-!
# Networks

A network is an address and a number of leading bits; the bits after them are kept as written.

* `Network.contains` says whether an address has the network's leading bits; an address of the
  other family never does.
* `Network.ofText?` and `Network.toText` read and write the form `address/length`.
-/

namespace MailScreen.Ip

open MailScreen.Text

/-- The addresses that begin with the first `length` bits of `address`. -/
structure Network where
  address : Address
  length : Nat
  length_le : length ≤ address.width
  deriving Repr, DecidableEq

namespace Network

/-- Whether an address lies in the network. -/
def contains (net : Network) (a : Address) : Bool :=
  net.address.agree net.length a

/-- The network of an address, if the length fits it. -/
def ofAddress? (a : Address) (length : Nat) : Option Network :=
  if h : length ≤ a.width then some ⟨a, length, h⟩ else none

/-- The network of one address. -/
def single (a : Address) : Network :=
  ⟨a, a.width, Nat.le_refl _⟩

/-- The network with the bits after its length cleared. -/
def truncated (net : Network) : Network :=
  ⟨net.address.clearAfter net.length, net.length, by
    have := net.length_le
    cases h : net.address <;> simpa [h, Address.clearAfter, Address.width] using this⟩

/-- The written form, as characters. -/
def toChars (net : Network) : List Char :=
  net.address.toChars ++ '/' :: Nat.toDigits 10 net.length

/-- The written form. -/
def toText (net : Network) : String :=
  String.ofList net.toChars

/-- A length of at most `digits` decimal digits. -/
def length? (digits : Nat) (cs : List Char) : Option Nat :=
  if cs.isEmpty || digits < cs.length then none else digitsValue? cs

/-- Reads `address/length`. -/
def ofChars? (cs : List Char) : Option Network := do
  let (before, after) ← cutFirst (· == '/') cs
  match ← read? .network before with
  | .v4 bits => ofAddress? (.v4 bits) (← length? 2 after)
  | .v6 bits => ofAddress? (.v6 bits) (← length? 3 after)

/-- Reads `address/length`. -/
def ofText? (s : String) : Option Network :=
  ofChars? s.toList

end Network

end MailScreen.Ip
