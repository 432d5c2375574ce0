import MailScreen.DomainName
import MailScreen.Ip.Reader

/-!
# The name a client gives itself

Model of `is_suspicious_helo`.

An honest client introduces itself by the full name of its host, or by its own address.

* `Helo.literal?` takes an address literal `[…]` or `[IPv6:…]` apart.
* `Helo.isSuspicious` holds of empty and local names, of names that are not full host names, and of
  addresses that are not the client's; IPv4-mapped addresses are taken as IPv4.
-/

namespace MailScreen.Helo

open MailScreen.Text

/-- Whether a text is a name that any host has. -/
def isLocal (cs : List Char) : Bool :=
  cs.isEmpty || eqIgnoreCase cs "localhost".toList ||
    eqIgnoreCase cs "localhost.localdomain".toList

/-- What an address literal encloses, without the tag `IPv6:`. -/
def literal? (cs : List Char) : Option (List Char) := do
  let inside ← dropLead? ['['] cs
  if inside.getLast? = some ']' then
    let text := inside.dropLast
    if eqIgnoreCase (text.take 5) "ipv6:".toList then some (text.drop 5) else some text
  else none

/-- Whether two addresses are the same host. -/
def sameHost (a b : Ip.Address) : Bool :=
  a.canonical == b.canonical

/-- Whether the name looks forged or lazy, for a client at this address. -/
def isSuspiciousChars (name : List Char) (client : Ip.Address) : Bool :=
  let name := DomainName.stripped name
  if isLocal name then true
  else
    match literal? name with
    | some text =>
      match Ip.Address.ofChars? text with
      | some a => ! sameHost a client
      | none => true
    | none =>
      match Ip.Address.ofChars? name with
      | some a => ! sameHost a client
      | none => ! DomainName.isQualifiedChars name

/-- Whether the name looks forged or lazy, for a client at this address. -/
def isSuspicious (helo : String) (client : Ip.Address) : Bool :=
  isSuspiciousChars helo.toList client

end MailScreen.Helo
