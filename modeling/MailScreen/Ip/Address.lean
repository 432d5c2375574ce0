/-!
# IP addresses

An address is a word of 32 or 128 bits.

`Address.canonical` is `canonical_ip`; `Address.agree` is what `ip_in_prefix` compares.

* `Address.canonical` takes an IPv4-mapped IPv6 address as the IPv4 address it stands for;
  `canonical_canonical` says that once is enough.
* `Address.toText` is the standard printed form: dotted decimal for IPv4; for IPv6 eight groups in
  lower-case hexadecimal with the first longest run of two or more zero groups left out, and the
  dotted form at the end of a mapped address.
* `Address.agree n a b` says that two addresses of one family have the same first `n` bits.
-/

namespace MailScreen.Ip

/-- An IPv4 or IPv6 address. -/
inductive Address where
  | v4 (bits : BitVec 32)
  | v6 (bits : BitVec 128)
  deriving Repr, DecidableEq

namespace Address

/-- The number of bits of an address of this family. -/
def width : Address → Nat
  | v4 _ => 32
  | v6 _ => 128

/-- The IPv4 address that an IPv4-mapped IPv6 address stands for. -/
def mapped? (bits : BitVec 128) : Option (BitVec 32) :=
  if bits >>> 32 = 0xFFFF#128 then some (bits.setWidth 32) else none

/-- The IPv4-mapped IPv6 form of an IPv4 address. -/
def mapping (bits : BitVec 32) : BitVec 128 :=
  0xFFFF#128 <<< 32 ||| bits.setWidth 128

/-- An IPv4-mapped IPv6 address as IPv4; any other address as it is. -/
def canonical : Address → Address
  | v4 bits => v4 bits
  | v6 bits =>
    match mapped? bits with
    | some short => v4 short
    | none => v6 bits

@[simp]
theorem canonical_canonical (a : Address) : a.canonical.canonical = a.canonical := by
  cases a with
  | v4 bits => rfl
  | v6 bits => cases h : mapped? bits <;> simp [canonical, h]

/-- Whether two addresses are of one family and agree on their first `n` bits. -/
def agree (n : Nat) : Address → Address → Bool
  | v4 a, v4 b => a >>> (32 - n) == b >>> (32 - n)
  | v6 a, v6 b => a >>> (128 - n) == b >>> (128 - n)
  | _, _ => false

/-- The address with all bits after the first `n` cleared. -/
def clearAfter (n : Nat) : Address → Address
  | v4 a => v4 (a >>> (32 - n) <<< (32 - n))
  | v6 a => v6 (a >>> (128 - n) <<< (128 - n))

/-! ## Printed form -/

/-- The four bytes of an IPv4 address, high byte first. -/
def octets (bits : BitVec 32) : List Nat :=
  [24, 16, 8, 0].map fun i => (bits >>> i).toNat % 256

/-- The eight groups of an IPv6 address, high group first. -/
def groups (bits : BitVec 128) : List Nat :=
  [112, 96, 80, 64, 48, 32, 16, 0].map fun i => (bits >>> i).toNat % 65536

/-- Dotted decimal. -/
def dotted (bits : BitVec 32) : List Char :=
  ['.'].intercalate ((octets bits).map (Nat.toDigits 10))

/-- Groups in hexadecimal, with a colon between two of them. -/
def colons (gs : List Nat) : List Char :=
  [':'].intercalate (gs.map (Nat.toDigits 16))

/-- How many groups are zero from the `i`-th on without a break. -/
def zerosAt (gs : List Nat) (i : Nat) : Nat :=
  ((gs.drop i).takeWhile (· == 0)).length

/-- Where the first longest run of zero groups begins, and its length. -/
def longestZeros (gs : List Nat) : Nat × Nat :=
  (List.range gs.length).foldl
    (fun best i => if best.2 < zerosAt gs i then (i, zerosAt gs i) else best) (0, 0)

/-- The printed form of an IPv6 address. -/
def colonText (bits : BitVec 128) : List Char :=
  match mapped? bits with
  | some short => [':', ':', 'f', 'f', 'f', 'f', ':'] ++ dotted short
  | none =>
    let gs := groups bits
    let (start, length) := longestZeros gs
    if 1 < length then
      colons (gs.take start) ++ [':', ':'] ++ colons (gs.drop (start + length))
    else colons gs

/-- The standard printed form, as characters. -/
def toChars : Address → List Char
  | v4 bits => dotted bits
  | v6 bits => colonText bits

/-- The standard printed form. -/
def toText (a : Address) : String :=
  String.ofList a.toChars

end Address

end MailScreen.Ip
