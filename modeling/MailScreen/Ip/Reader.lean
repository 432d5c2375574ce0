import MailScreen.Ip.Address
import MailScreen.Text.Split
import MailScreen.Text.Hex
import MailScreen.Text.Ascii

/-!
# Reading IP addresses

The written form of an address is read under one of two rules, which differ in small things: how
client addresses are written and how addresses in networks are written.

* `Rule.address`: no leading zeros in the four numbers of an IPv4 address, and `::` stands for at
  least one group.
* `Rule.network`: leading zeros are allowed, and `::` may stand for no group at all.
* `read?` reads a whole text under a rule, `ofChars?` under `Rule.address`.
-/

namespace MailScreen.Ip

open MailScreen.Text

/-- What is allowed in a written address. -/
structure Rule where
  /-- Whether `010` may be written for ten in an IPv4 address. -/
  leadingZeros : Bool
  /-- How many groups may stand beside a `::`. -/
  groupsBesideGap : Nat
  deriving Repr, DecidableEq

/-- The rule for addresses that stand alone. -/
def Rule.address : Rule := ⟨false, 7⟩

/-- The rule for addresses of networks. -/
def Rule.network : Rule := ⟨true, 8⟩

/-- One of the four numbers of an IPv4 address: one to three digits, at most 255. -/
def octet? (rule : Rule) (cs : List Char) : Option Nat :=
  if cs.isEmpty || 3 < cs.length then none
  else if ! rule.leadingZeros && 1 < cs.length && cs.head? == some '0' then none
  else (digitsValue? cs).filter (· < 256)

/-- An IPv4 address: four numbers with a dot between two of them. -/
def readV4? (rule : Rule) (cs : List Char) : Option (BitVec 32) :=
  match pieces (· == '.') cs with
  | [a, b, c, d] => do
    let a ← octet? rule a
    let b ← octet? rule b
    let c ← octet? rule c
    let d ← octet? rule d
    return BitVec.ofNat 32 (((a * 256 + b) * 256 + c) * 256 + d)
  | _ => none

/-- One group of an IPv6 address: one to four hexadecimal digits. -/
def group? (cs : List Char) : Option Nat :=
  if cs.isEmpty || 4 < cs.length then none
  else cs.foldlM (fun n c => (Hex.value? c).map (16 * n + ·)) 0

/-- Groups; the last of them may be an IPv4 address, which counts for two, if `dotted` allows. -/
def groupList? (rule : Rule) (dotted : Bool) : List (List Char) → Option (List Nat)
  | [] => some []
  | [last] =>
    match if dotted then readV4? rule last else none with
    | some bits => some [(bits >>> 16).toNat, bits.toNat % 65536]
    | none => (group? last).map ([·])
  | first :: rest => do
    let g ← group? first
    return g :: (← groupList? rule dotted rest)

/-- The groups of a side of an IPv6 address, which may be empty beside a gap. -/
def side? (rule : Rule) (dotted : Bool) (cs : List Char) : Option (List Nat) :=
  if cs.isEmpty then some [] else groupList? rule dotted (pieces (· == ':') cs)

/-- What stands before and after the first `::`. -/
def cutGap : List Char → Option (List Char × List Char)
  | ':' :: ':' :: rest => some ([], rest)
  | c :: rest => (cutGap rest).map fun (a, b) => (c :: a, b)
  | [] => none

/-- The address of eight groups. -/
def ofGroups (gs : List Nat) : BitVec 128 :=
  BitVec.ofNat 128 (gs.foldl (fun n g => 65536 * n + g) 0)

/-- An IPv6 address. -/
def readV6? (rule : Rule) (cs : List Char) : Option (BitVec 128) :=
  match cutGap cs with
  | none => do
    let gs ← side? rule true cs
    if gs.length = 8 then some (ofGroups gs) else none
  | some (before, after) => do
    let front ← side? rule false before
    let back ← side? rule true after
    if front.length ≤ 7 ∧ front.length + back.length ≤ rule.groupsBesideGap then
      some (ofGroups (front ++ List.replicate (8 - front.length - back.length) 0 ++ back))
    else none

/-- An address of either family. -/
def read? (rule : Rule) (cs : List Char) : Option Address :=
  match readV4? rule cs with
  | some bits => some (.v4 bits)
  | none => (readV6? rule cs).map .v6

/-- An address that stands alone. -/
def Address.ofChars? (cs : List Char) : Option Address :=
  read? .address cs

/-- An address that stands alone. -/
def Address.ofText? (s : String) : Option Address :=
  Address.ofChars? s.toList

end MailScreen.Ip
