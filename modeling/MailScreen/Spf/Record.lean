import MailScreen.Ip.Network
import MailScreen.Spf.Outcome
import MailScreen.Text.Blank

/-!
# Policy records

Model of `is_spf_record`, `parse_spf_record` and `parse_mechanism` (RFC 7208).

A policy is a text that begins with `v=spf1`, followed by terms with blanks between them. A term is
a directive (a qualifier and a mechanism) or a modifier `name=value`.

* `isRecord` says which texts are policies at all.
* `Term.ofWord` reads a term, `Record.ofChars` a policy. Modifiers other than `redirect` have no
  effect; a second `redirect` is an error.
* `Fault.message` gives the wording of the errors.
-/

namespace MailScreen.Spf

open MailScreen.Text

/-- What a match of a mechanism means. -/
inductive Qualifier where
  | pass
  | fail
  | softFail
  | neutral
  deriving Repr, DecidableEq

namespace Qualifier

/-- The outcome of a match. -/
def outcome : Qualifier → Outcome
  | pass => .pass
  | fail => .fail
  | softFail => .softFail
  | neutral => .neutral

/-- The character that writes the qualifier. -/
def symbol : Qualifier → Char
  | pass => '+'
  | fail => '-'
  | softFail => '~'
  | neutral => '?'

/-- The qualifier that a character writes. -/
def ofSymbol? (c : Char) : Option Qualifier :=
  [pass, fail, softFail, neutral].find? (·.symbol == c)

end Qualifier

/-- How many leading bits of an address count, by family. -/
structure Lengths where
  v4 : Nat
  v6 : Nat
  deriving Repr, DecidableEq

/-- All bits count. -/
def Lengths.whole : Lengths := ⟨32, 128⟩

/-- A test on the client; names are written with macros. -/
inductive Mechanism where
  | all
  /-- The policy of another domain lets the client pass. -/
  | included (domain : String)
  /-- The client is near an address of the domain. -/
  | address (domain : Option String) (lengths : Lengths)
  /-- The client is near an address of a host that takes mail for the domain. -/
  | exchange (domain : Option String) (lengths : Lengths)
  | ip4 (network : Ip.Network)
  | ip6 (network : Ip.Network)
  | pointer (domain : Option String)
  /-- The domain has an address. -/
  | existing (domain : String)
  deriving Repr, DecidableEq

/-- A qualifier and a mechanism. -/
structure Directive where
  qualifier : Qualifier
  mechanism : Mechanism
  deriving Repr, DecidableEq

/-- A policy. -/
structure Record where
  directives : List Directive
  /-- The domain whose policy applies if no mechanism matches. -/
  redirect : Option String
  deriving Repr, DecidableEq

/-- What is wrong with a policy. -/
inductive Fault where
  | missingVersion
  | malformedTerm (term : String)
  | duplicateRedirect
  | missingIp4Address
  | missingIp6Address
  | missingDomain
  | lengthOutOfRange
  | unknownMechanism (text : String)
  | badNumber (e : NumberError)
  | badNetwork
  deriving Repr, DecidableEq

/-- The wording of the fault. -/
def Fault.message : Fault → String
  | missingVersion => "Invalid SPF record: missing v=spf1"
  | malformedTerm term => "Malformed SPF term: " ++ term
  | duplicateRedirect => "Duplicate redirect modifier"
  | missingIp4Address => "ip4 requires an address"
  | missingIp6Address => "ip6 requires an address"
  | missingDomain => "Mechanism requires a domain"
  | lengthOutOfRange => "CIDR length out of range"
  | unknownMechanism text => "Unknown SPF mechanism: " ++ text
  | badNumber e => e.message
  | badNetwork => "invalid IP address syntax"

/-! ## Mechanisms -/

/-- A number of leading bits; nothing written stands for `absent`. -/
def length? (absent : Nat) (cs : List Char) : Except Fault Nat :=
  if cs.isEmpty then .ok absent
  else match unsigned? 255 cs with
    | .ok n => .ok n
    | .error e => .error (.badNumber e)

/-- What stands before and after the first `//`. -/
def cutDoubleSlash : List Char → Option (List Char × List Char)
  | '/' :: '/' :: rest => some ([], rest)
  | c :: rest => (cutDoubleSlash rest).map fun (a, b) => (c :: a, b)
  | [] => none

/-- The two numbers in `/v4//v6`, of which either or both may be absent. -/
def lengthTexts (cs : List Char) : List Char × List Char :=
  match dropLead? ['/', '/'] cs with
  | some v6 => ([], v6)
  | none =>
    match dropLead? ['/'] cs with
    | some both => (cutDoubleSlash both).getD (both, [])
    | none => ([], [])

/-- Reads `/v4//v6`. -/
def lengths? (cs : List Char) : Except Fault Lengths := do
  let (v4, v6) := lengthTexts cs
  let v4 ← length? 32 v4
  let v6 ← length? 128 v6
  if v4 ≤ 32 ∧ v6 ≤ 128 then .ok ⟨v4, v6⟩ else .error .lengthOutOfRange

/-- The domain after a colon, which must be there. -/
def requiredDomain (cs : List Char) : Except Fault String :=
  match cs with
  | ':' :: c :: rest => .ok (String.ofList (c :: rest))
  | _ => .error .missingDomain

/-- A domain and lengths, each of which may be absent. -/
def domainAndLengths (cs : List Char) : Except Fault (Option String × Lengths) := do
  let domain := cs.takeWhile (· != '/')
  let domain ← if domain.isEmpty then .ok none else (requiredDomain domain).map some
  let lengths ← lengths? (cs.dropWhile (· != '/'))
  return (domain, lengths)

/-- A network of one family; an address stands for the network of that address alone. -/
def network? (version : Nat) (cs : List Char) : Except Fault Ip.Network :=
  let text := if cs.contains '/' then cs else cs ++ '/' :: Nat.toDigits 10 version
  match Ip.Network.ofChars? text with
  | some net => if net.address.width = version then .ok net else .error .badNetwork
  | none => .error .badNetwork

/-- Reads a mechanism: a name, then what begins with the first colon or slash. -/
def Mechanism.ofChars (cs : List Char) : Except Fault Mechanism :=
  let isMark := fun c => c == ':' || c == '/'
  let name := cs.takeWhile (! isMark ·)
  let rest := cs.dropWhile (! isMark ·)
  match String.ofList (lowerAscii name) with
  | "a" => (domainAndLengths rest).map fun (d, n) => .address d n
  | "mx" => (domainAndLengths rest).map fun (d, n) => .exchange d n
  | "ip4" =>
    match rest with
    | ':' :: text => (network? 32 text).map .ip4
    | _ => .error .missingIp4Address
  | "ip6" =>
    match rest with
    | ':' :: text => (network? 128 text).map .ip6
    | _ => .error .missingIp6Address
  | "include" => (requiredDomain rest).map .included
  | "exists" => (requiredDomain rest).map .existing
  | "ptr" =>
    match rest with
    | ':' :: text => .ok (.pointer (some (String.ofList text)))
    | _ => .ok (.pointer none)
  | "all" => if rest.isEmpty then .ok .all else .error (.unknownMechanism (String.ofList cs))
  | _ => .error (.unknownMechanism (String.ofList cs))

/-! ## Terms -/

/-- A term of a policy. -/
inductive Term where
  | directive (d : Directive)
  | redirect (domain : String)
  /-- A modifier without effect. -/
  | modifier
  deriving Repr, DecidableEq

namespace Term

/-- Reads a modifier with this name and value. -/
def ofModifier (word name value : List Char) : Except Fault Term :=
  if name.any fun c => c == ':' || c == '/' then
    .error (.malformedTerm (String.ofList word))
  else if lowerAscii name = "redirect".toList then .ok (.redirect (String.ofList value))
  else .ok .modifier

/-- Reads a directive; without a qualifier a match means `pass`. -/
def ofDirective (word : List Char) : Except Fault Term :=
  match word with
  | c :: rest =>
    match Qualifier.ofSymbol? c with
    | some q => (Mechanism.ofChars rest).map fun m => .directive ⟨q, m⟩
    | none => (Mechanism.ofChars word).map fun m => .directive ⟨.pass, m⟩
  | [] => (Mechanism.ofChars []).map fun m => .directive ⟨.pass, m⟩

/-- Reads a term. -/
def ofWord (word : List Char) : Except Fault Term :=
  match cutFirst (· == '=') word with
  | some (name, value) => ofModifier word name value
  | none => ofDirective word

end Term

namespace Record

/-- No terms. -/
def empty : Record := ⟨[], none⟩

/-- Adds a term after the others. -/
def add (r : Record) : Term → Except Fault Record
  | .directive d => .ok { r with directives := r.directives ++ [d] }
  | .redirect domain =>
    if r.redirect.isSome then .error .duplicateRedirect
    else .ok { r with redirect := some domain }
  | .modifier => .ok r

/-- Reads the terms that follow those of `r`. -/
def addWords (r : Record) : List (List Char) → Except Fault Record
  | [] => .ok r
  | word :: rest => do
    let term ← Term.ofWord word
    let r ← r.add term
    addWords r rest

/-- What follows the version of a policy. -/
def afterVersion? (cs : List Char) : Option (List Char) :=
  let text := cs.dropWhile isBlank
  if eqIgnoreCase (text.take 6) "v=spf1".toList then
    match text.drop 6 with
    | [] => some []
    | c :: rest => if c = ' ' then some (c :: rest) else none
  else none

/-- Reads a policy. -/
def ofChars (cs : List Char) : Except Fault Record :=
  match afterVersion? cs with
  | some terms => addWords empty (words terms)
  | none => .error .missingVersion

/-- Reads a policy. -/
def ofText (s : String) : Except Fault Record :=
  ofChars s.toList

end Record

/-- Whether a text is a policy, well-formed or not. -/
def isRecord (s : String) : Bool :=
  (Record.afterVersion? s.toList).isSome

end MailScreen.Spf
