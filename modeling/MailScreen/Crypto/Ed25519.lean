import MailScreen.Crypto.Der
import MailScreen.Crypto.Pem
import MailScreen.Crypto.PowMod

/-!
# Ed25519 signatures

Signatures on the twisted Edwards curve `-x² + y² = 1 + d x² y²` over the field of `2^255 - 19`
elements.

* `Point` is a point in extended coordinates; `Point.add` adds, `Point.times` multiplies.
* `Point.ofBytes?` reads the 32 bytes of a point, `Point.toBytes` writes them.
* `PublicKey.verify` is strict: the scalar is reduced, neither point has a small order, and the
  points are compared by their bytes.
-/

namespace MailScreen.Crypto.Ed25519

/-- The number of elements of the field. -/
def field : Nat := Nat.pow 2 255 - 19

/-- The order of the base point. -/
def order : Nat := Nat.pow 2 252 + 27742317777372353535851937790883648493

/-- The inverse in the field; the inverse of zero is zero. -/
def inverse (a : Nat) : Nat := powMod a (field - 2) field

/-- The difference in the field. -/
def sub (a b : Nat) : Nat := (a + (field - b % field)) % field

/-- The constant of the curve. -/
def curveD : Nat := sub 0 (121665 * inverse 121666 % field)

/-- A square root of minus one. -/
def rootOfMinusOne : Nat := powMod 2 ((field - 1) / 4) field

/-- A point `(x / z, y / z)` with `x y = z t`. -/
structure Point where
  x : Nat
  y : Nat
  z : Nat
  t : Nat
  deriving Repr, DecidableEq

namespace Point

/-- The neutral point. -/
def zero : Point := ⟨0, 1, 1, 0⟩

/-- The sum of two points. -/
def add (p q : Point) : Point :=
  let a := sub p.y p.x * sub q.y q.x % field
  let b := (p.y + p.x) * (q.y + q.x) % field
  let c := p.t * (2 * curveD) * q.t % field
  let d := p.z * 2 * q.z % field
  let e := sub b a
  let f := sub d c
  let g := (d + c) % field
  let h := (b + a) % field
  ⟨e * f % field, g * h % field, f * g % field, e * h % field⟩

/-- The inverse of a point. -/
def neg (p : Point) : Point :=
  ⟨sub 0 p.x, p.y, p.z, sub 0 p.t⟩

/-- A multiple of a point. -/
def times (n : Nat) (p : Point) : Point :=
  if n = 0 then zero
  else
    let half := times (n / 2) (p.add p)
    if n % 2 = 0 then half else half.add p
termination_by n
decreasing_by omega

/-- Whether eight times the point is neutral. -/
def hasSmallOrder (p : Point) : Bool :=
  let q := p.times 8
  q.x % field == 0 && q.y % field == q.z % field

/-- Number of 32 bytes, low byte first. -/
def littleEndian (n : Nat) : List UInt8 :=
  (bigEndian 32 n).reverse

/-- The 32 bytes of a point: `y`, with the parity of `x` in the highest bit. -/
def toBytes (p : Point) : List UInt8 :=
  let zi := inverse p.z
  let x := p.x * zi % field
  let y := p.y * zi % field
  littleEndian (y + Nat.pow 2 255 * (x % 2))

/-- The even one of the square roots of `u / v`, if there are any. -/
def ratioRoot? (u v : Nat) : Option Nat :=
  let square := u * inverse v % field
  let r := powMod square ((field + 3) / 8) field
  let r := if r * r % field = square then r else r * rootOfMinusOne % field
  if r * r % field = square then some (if r % 2 = 0 then r else sub 0 r) else none

/-- The point of 32 bytes; `y` may be written as a number beyond the field. -/
def ofBytes? (bytes : List UInt8) : Option Point :=
  if bytes.length = 32 then
    let n := ofBigEndian bytes.reverse
    let y := n % Nat.pow 2 255 % field
    let y2 := y * y % field
    match ratioRoot? (sub y2 1) ((curveD * y2 + 1) % field) with
    | some root =>
      let x := if n < Nat.pow 2 255 then root else sub 0 root
      some ⟨x, y, 1, x * y % field⟩
    | none => none
  else none

/-- The base point. -/
def base : Point :=
  (ofBytes? (littleEndian (4 * inverse 5 % field))).getD zero

end Point

/-- The number that a hash writes, low byte first. -/
def hashNumber (message : List UInt8) : Nat :=
  ofBigEndian (sha512 message).reverse

/-- A public key: its bytes, and the point that they stand for. -/
structure PublicKey where
  bytes : List UInt8
  point : Point
  deriving Repr, DecidableEq

namespace PublicKey

/-- Reads the 32 bytes of a key. -/
def ofBytes? (bytes : List UInt8) : Option PublicKey :=
  (Point.ofBytes? bytes).map fun p => ⟨bytes, p⟩

/-- Whether a signature of a message is valid. -/
def verify (k : PublicKey) (message signature : List UInt8) : Bool :=
  let r := signature.take 32
  let s := ofBigEndian (signature.drop 32).reverse
  if signature.length = 64 ∧ s < order then
    match Point.ofBytes? r with
    | some point =>
      let h := hashNumber (r ++ k.bytes ++ message) % order
      ! point.hasSmallOrder && ! k.point.hasSmallOrder &&
        ((Point.base.times s).add (k.point.neg.times h)).toBytes == r
    | none => false
  else false

end PublicKey

/-- A private key: 32 bytes. -/
structure PrivateKey where
  seed : List UInt8
  deriving Repr, DecidableEq

namespace PrivateKey

/-- The secret scalar: the low half of the hash of the seed, with its three lowest bits and its
highest bit cleared and the bit below that set. -/
def scalar (k : PrivateKey) : Nat :=
  let n := ofBigEndian ((sha512 k.seed).take 32).reverse
  n % Nat.pow 2 254 / 8 * 8 + Nat.pow 2 254

/-- The bytes of the public key. -/
def publicBytes (k : PrivateKey) : List UInt8 :=
  (Point.base.times k.scalar).toBytes

/-- The signature of a message. -/
def sign (k : PrivateKey) (message : List UInt8) : List UInt8 :=
  let nonce := hashNumber ((sha512 k.seed).drop 32 ++ message) % order
  let r := (Point.base.times nonce).toBytes
  let h := hashNumber (r ++ k.publicBytes ++ message) % order
  r ++ Point.littleEndian ((nonce + h * k.scalar) % order)

/-- The key in a container for Ed25519 keys; a public key that goes with it must be its own. -/
def ofContainer? (bytes : List UInt8) : Option PrivateKey := do
  let container ← Der.privateKey? bytes
  let seed ← Der.whole? Der.octetStringTag container.key
  let k : PrivateKey := ⟨seed⟩
  if container.algorithm = Der.ed25519Algorithm ∧ seed.length = 32 ∧
      (container.publicKey.all (· == k.publicBytes)) then some k
  else none

/-- Reads a key file. -/
def ofPem? (text : String) : Option PrivateKey :=
  (Pem.decode? "PRIVATE KEY" text).bind ofContainer?

end PrivateKey

end MailScreen.Crypto.Ed25519
