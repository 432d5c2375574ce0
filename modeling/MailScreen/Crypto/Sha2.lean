import MailScreen.Text.Split

/-!
# The SHA-2 hash functions

SHA-256 and SHA-512 are one construction over words of 32 and of 64 bits.

* `Word` is what the construction needs of a word, `Variant` what differs between the two besides
  the word: rotations, initial state and round constants.
* `Variant.hash` pads a message, cuts it into blocks of sixteen words and compresses them in turn.
* `sha256` and `sha512` are the two functions on bytes.
-/

namespace MailScreen.Crypto

/-- What the construction needs of a word. -/
class Word (α : Type) extends Add α, XorOp α, AndOp α, Complement α, Inhabited α where
  /-- The number of bytes of a word. -/
  size : Nat
  rotateRight : α → Nat → α
  shiftRight : α → Nat → α
  ofNat : Nat → α
  toNat : α → Nat

instance : Word UInt32 where
  size := 4
  rotateRight x n := x >>> UInt32.ofNat n ||| x <<< UInt32.ofNat (32 - n)
  shiftRight x n := x >>> UInt32.ofNat n
  ofNat := UInt32.ofNat
  toNat := UInt32.toNat

instance : Word UInt64 where
  size := 8
  rotateRight x n := x >>> UInt64.ofNat n ||| x <<< UInt64.ofNat (64 - n)
  shiftRight x n := x >>> UInt64.ofNat n
  ofNat := UInt64.ofNat
  toNat := UInt64.toNat

/-- The eight words that a block is compressed into. -/
structure ChainState (α : Type) where
  a : α
  b : α
  c : α
  d : α
  e : α
  f : α
  g : α
  h : α
  deriving Repr, DecidableEq

/-- The amounts of two rotations and a third rotation or shift. -/
structure Amounts where
  first : Nat
  second : Nat
  third : Nat
  deriving Repr, DecidableEq

/-- What differs between the two functions. -/
structure Variant (α : Type) where
  /-- Rotations of the word `a`. -/
  upperA : Amounts
  /-- Rotations of the word `e`. -/
  upperE : Amounts
  /-- Two rotations and a shift of the word fifteen places back in the schedule. -/
  lowerFar : Amounts
  /-- Two rotations and a shift of the word two places back in the schedule. -/
  lowerNear : Amounts
  initial : ChainState α
  constants : List α

variable {α : Type} [Word α]

/-- The sum of three rotations. -/
@[specialize]
def mixRotations (n : Amounts) (x : α) : α :=
  Word.rotateRight x n.first ^^^ Word.rotateRight x n.second ^^^ Word.rotateRight x n.third

/-- The sum of two rotations and a shift. -/
@[specialize]
def mixShift (n : Amounts) (x : α) : α :=
  Word.rotateRight x n.first ^^^ Word.rotateRight x n.second ^^^ Word.shiftRight x n.third

/-- One round, with a constant and a word of the schedule. -/
@[specialize]
def Variant.round (v : Variant α) (s : ChainState α) (k w : α) : ChainState α :=
  let choice := (s.e &&& s.f) ^^^ (~~~ s.e &&& s.g)
  let majority := (s.a &&& s.b) ^^^ (s.a &&& s.c) ^^^ (s.b &&& s.c)
  let t1 := s.h + mixRotations v.upperE s.e + choice + k + w
  let t2 := mixRotations v.upperA s.a + majority
  ⟨t1 + t2, s.a, s.b, s.c, s.d + t1, s.e, s.f, s.g⟩

/-- The next word of a schedule. -/
@[specialize]
def Variant.nextWord (v : Variant α) (ws : Array α) : α :=
  let back := fun n => ws.getD (ws.size - n) default
  mixShift v.lowerNear (back 2) + back 7 + mixShift v.lowerFar (back 15) + back 16

/-- The sixteen words of a block, extended to a word for each round. -/
@[specialize]
def Variant.schedule (v : Variant α) (block : Array α) : Array α :=
  (List.range (v.constants.length - 16)).foldl (fun ws _ => ws.push (v.nextWord ws)) block

/-- The state after a block. -/
@[specialize]
def Variant.compress (v : Variant α) (s : ChainState α) (block : List α) : ChainState α :=
  let words := (v.schedule block.toArray).toList
  let t := (v.constants.zip words).foldl (fun s (k, w) => v.round s k w) s
  ⟨s.a + t.a, s.b + t.b, s.c + t.c, s.d + t.d, s.e + t.e, s.f + t.f, s.g + t.g, s.h + t.h⟩

/-- A number as bytes, high byte first. -/
def bigEndian (size n : Nat) : List UInt8 :=
  (List.range size).map fun i => UInt8.ofNat (n / Nat.pow 256 (size - 1 - i))

/-- The number that bytes write, high byte first. -/
def ofBigEndian (bytes : List UInt8) : Nat :=
  bytes.foldl (fun n b => 256 * n + b.toNat) 0

/-- Consecutive pieces of `size` elements; the last may be shorter. -/
def chunks {β : Type} (size : Nat) (xs : List β) : List (List β) :=
  if size = 0 ∨ xs.isEmpty then []
  else xs.take size :: chunks size (xs.drop size)
termination_by xs.length
decreasing_by
  rename_i h
  cases xs with
  | nil => simp at h
  | cons x xs => simp at h ⊢; omega

/-- A message, a one bit, zero bits, and the number of its bits in two words, so that all together
is whole blocks. -/
def padded (size : Nat) (message : List UInt8) : List UInt8 :=
  let block := 16 * size
  let zeros := (2 * block - 1 - 2 * size - message.length % block) % block
  message ++ 0x80 :: List.replicate zeros 0 ++ bigEndian (2 * size) (8 * message.length)

/-- The hash of a message. -/
@[specialize]
def Variant.hash (v : Variant α) (message : List UInt8) : List UInt8 :=
  let size := Word.size α
  let words := (chunks size (padded size message)).map fun bytes =>
    (Word.ofNat (ofBigEndian bytes) : α)
  let s := (chunks 16 words).foldl v.compress v.initial
  [s.a, s.b, s.c, s.d, s.e, s.f, s.g, s.h].flatMap fun w => bigEndian size (Word.toNat w)

/-! ## The two functions -/

/-- The first 32 bits of the fractional parts of the cube roots of the first 64 primes. -/
def cubeRoots32 : List UInt32 := [
  0x428A2F98, 0x71374491, 0xB5C0FBCF, 0xE9B5DBA5, 0x3956C25B, 0x59F111F1, 0x923F82A4, 0xAB1C5ED5,
  0xD807AA98, 0x12835B01, 0x243185BE, 0x550C7DC3, 0x72BE5D74, 0x80DEB1FE, 0x9BDC06A7, 0xC19BF174,
  0xE49B69C1, 0xEFBE4786, 0x0FC19DC6, 0x240CA1CC, 0x2DE92C6F, 0x4A7484AA, 0x5CB0A9DC, 0x76F988DA,
  0x983E5152, 0xA831C66D, 0xB00327C8, 0xBF597FC7, 0xC6E00BF3, 0xD5A79147, 0x06CA6351, 0x14292967,
  0x27B70A85, 0x2E1B2138, 0x4D2C6DFC, 0x53380D13, 0x650A7354, 0x766A0ABB, 0x81C2C92E, 0x92722C85,
  0xA2BFE8A1, 0xA81A664B, 0xC24B8B70, 0xC76C51A3, 0xD192E819, 0xD6990624, 0xF40E3585, 0x106AA070,
  0x19A4C116, 0x1E376C08, 0x2748774C, 0x34B0BCB5, 0x391C0CB3, 0x4ED8AA4A, 0x5B9CCA4F, 0x682E6FF3,
  0x748F82EE, 0x78A5636F, 0x84C87814, 0x8CC70208, 0x90BEFFFA, 0xA4506CEB, 0xBEF9A3F7, 0xC67178F2]

/-- The first 64 bits of the fractional parts of the cube roots of the first 80 primes. -/
def cubeRoots64 : List UInt64 := [
  0x428A2F98D728AE22, 0x7137449123EF65CD, 0xB5C0FBCFEC4D3B2F, 0xE9B5DBA58189DBBC,
  0x3956C25BF348B538, 0x59F111F1B605D019, 0x923F82A4AF194F9B, 0xAB1C5ED5DA6D8118,
  0xD807AA98A3030242, 0x12835B0145706FBE, 0x243185BE4EE4B28C, 0x550C7DC3D5FFB4E2,
  0x72BE5D74F27B896F, 0x80DEB1FE3B1696B1, 0x9BDC06A725C71235, 0xC19BF174CF692694,
  0xE49B69C19EF14AD2, 0xEFBE4786384F25E3, 0x0FC19DC68B8CD5B5, 0x240CA1CC77AC9C65,
  0x2DE92C6F592B0275, 0x4A7484AA6EA6E483, 0x5CB0A9DCBD41FBD4, 0x76F988DA831153B5,
  0x983E5152EE66DFAB, 0xA831C66D2DB43210, 0xB00327C898FB213F, 0xBF597FC7BEEF0EE4,
  0xC6E00BF33DA88FC2, 0xD5A79147930AA725, 0x06CA6351E003826F, 0x142929670A0E6E70,
  0x27B70A8546D22FFC, 0x2E1B21385C26C926, 0x4D2C6DFC5AC42AED, 0x53380D139D95B3DF,
  0x650A73548BAF63DE, 0x766A0ABB3C77B2A8, 0x81C2C92E47EDAEE6, 0x92722C851482353B,
  0xA2BFE8A14CF10364, 0xA81A664BBC423001, 0xC24B8B70D0F89791, 0xC76C51A30654BE30,
  0xD192E819D6EF5218, 0xD69906245565A910, 0xF40E35855771202A, 0x106AA07032BBD1B8,
  0x19A4C116B8D2D0C8, 0x1E376C085141AB53, 0x2748774CDF8EEB99, 0x34B0BCB5E19B48A8,
  0x391C0CB3C5C95A63, 0x4ED8AA4AE3418ACB, 0x5B9CCA4F7763E373, 0x682E6FF3D6B2B8A3,
  0x748F82EE5DEFB2FC, 0x78A5636F43172F60, 0x84C87814A1F0AB72, 0x8CC702081A6439EC,
  0x90BEFFFA23631E28, 0xA4506CEBDE82BDE9, 0xBEF9A3F7B2C67915, 0xC67178F2E372532B,
  0xCA273ECEEA26619C, 0xD186B8C721C0C207, 0xEADA7DD6CDE0EB1E, 0xF57D4F7FEE6ED178,
  0x06F067AA72176FBA, 0x0A637DC5A2C898A6, 0x113F9804BEF90DAE, 0x1B710B35131C471B,
  0x28DB77F523047D84, 0x32CAAB7B40C72493, 0x3C9EBE0A15C9BEBC, 0x431D67C49C100D4C,
  0x4CC5D4BECB3E42B6, 0x597F299CFC657E2A, 0x5FCB6FAB3AD6FAEC, 0x6C44198C4A475817]

/-- SHA-256; the initial state is made of square roots of primes. -/
def variant256 : Variant UInt32 where
  upperA := ⟨2, 13, 22⟩
  upperE := ⟨6, 11, 25⟩
  lowerFar := ⟨7, 18, 3⟩
  lowerNear := ⟨17, 19, 10⟩
  initial := ⟨0x6A09E667, 0xBB67AE85, 0x3C6EF372, 0xA54FF53A,
    0x510E527F, 0x9B05688C, 0x1F83D9AB, 0x5BE0CD19⟩
  constants := cubeRoots32

/-- SHA-512; the initial state is made of square roots of primes. -/
def variant512 : Variant UInt64 where
  upperA := ⟨28, 34, 39⟩
  upperE := ⟨14, 18, 41⟩
  lowerFar := ⟨1, 8, 7⟩
  lowerNear := ⟨19, 61, 6⟩
  initial := ⟨0x6A09E667F3BCC908, 0xBB67AE8584CAA73B, 0x3C6EF372FE94F82B,
    0xA54FF53A5F1D36F1, 0x510E527FADE682D1, 0x9B05688C2B3E6C1F,
    0x1F83D9ABFB41BD6B, 0x5BE0CD19137E2179⟩
  constants := cubeRoots64

/-- The SHA-256 hash of a message: 32 bytes. -/
def sha256 (message : List UInt8) : List UInt8 :=
  variant256.hash message

/-- The SHA-512 hash of a message: 64 bytes. -/
def sha512 (message : List UInt8) : List UInt8 :=
  variant512.hash message

end MailScreen.Crypto
