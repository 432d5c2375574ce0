import MailScreen.Request

/-!
# Two forms of an IPv4 client

A server that listens on one socket for both families sees an IPv4 client under its IPv4-mapped IPv6
address, any other server under its own.

* `canonical_mapping`: the mapped form stands for the address.
* `Request.fromClient` is a request as it would come from another address.
-/

namespace MailScreen

namespace Ip.Address

theorem mapping_ushiftRight (bits : BitVec 32) : mapping bits >>> 32 = 0xFFFF#128 := by
  have hhigh : 0xFFFF#128 <<< 32 >>> 32 = 0xFFFF#128 := by decide
  have hlow : bits.setWidth 128 >>> 32 = 0#128 := by
    apply BitVec.eq_of_toNat_eq
    have hbits := bits.isLt
    simp only [BitVec.toNat_ushiftRight, BitVec.toNat_setWidth, Nat.shiftRight_eq_div_pow,
      BitVec.toNat_ofNat]
    omega
  rw [mapping, BitVec.ushiftRight_or_distrib, hhigh, hlow, BitVec.or_zero]

theorem setWidth_mapping (bits : BitVec 32) : (mapping bits).setWidth 32 = bits := by
  have hhigh : (0xFFFF#128 <<< 32).setWidth 32 = 0#32 := by decide
  rw [mapping, BitVec.setWidth_or, hhigh, BitVec.setWidth_setWidth_of_le _ (by decide),
    BitVec.setWidth_eq, BitVec.zero_or]

theorem mapped?_mapping (bits : BitVec 32) : mapped? (mapping bits) = some bits := by
  rw [mapped?, if_pos (mapping_ushiftRight bits), setWidth_mapping]

/-- **The mapped form of an address stands for it.** -/
@[simp]
theorem canonical_mapping (bits : BitVec 32) : (v6 (mapping bits)).canonical = v4 bits := by
  rw [canonical, mapped?_mapping]

end Ip.Address

/-- The same request from another address. -/
def Request.fromClient (r : Request) (a : Ip.Address) : Request :=
  { r with client := a }

end MailScreen
