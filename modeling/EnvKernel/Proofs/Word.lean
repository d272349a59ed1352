import EnvKernel.Word
import Mathlib.Algebra.Group.Nat.Defs

/-!
Words as numbers: sums and differences that do not wrap around, and words whose low bits are cleared by a
mask. Such a word is rounded down to a multiple of a power of two.
-/

namespace EnvKernel.Word

theorem toNat_add {a b : UInt64} (h : a.toNat + b.toNat < 0x10000000000000000) :
    (a + b).toNat = a.toNat + b.toNat := by
  rw [UInt64.toNat_add, Nat.mod_eq_of_lt h]

/-- The place number `i` in a table that does not wrap around. -/
theorem toNat_add_ofNat_mul {a s : UInt64} {i : Nat} (h : a.toNat + s.toNat * i < 0x10000000000000000) :
    (a + UInt64.ofNat i * s).toNat = a.toNat + s.toNat * i := by
  rw [UInt64.toNat_add, UInt64.toNat_mul, UInt64.toNat_ofNat', Nat.mod_mul_mod, Nat.add_mod_mod,
    Nat.mul_comm i, Nat.mod_eq_of_lt h]

theorem toNat_sub {a b : UInt64} (h : b.toNat ≤ a.toNat) : (a - b).toNat = a.toNat - b.toNat :=
  UInt64.toNat_sub_of_le a b (UInt64.le_iff_toNat_le.2 h)

theorem le_of_sub? {a b c : UInt64} (h : sub? a b = some c) : c ≤ a := by
  rw [UInt64.le_iff_toNat_le, toNat_sub? h]
  exact Nat.sub_le _ _

theorem toNat_max (a b : UInt64) : (Max.max a b).toNat = Max.max a.toNat b.toNat := by
  show (if a ≤ b then b else a).toNat = _
  split <;> rename_i h <;> rw [UInt64.le_iff_toNat_le] at h <;> omega

/-- Clearing the `k` low bits rounds down to a multiple of `2 ^ k`. -/
theorem toNat_and_not_mask {w : Nat} (x : BitVec w) (k : Nat) :
    (x &&& ~~~BitVec.ofNat w (2 ^ k - 1)).toNat = x.toNat / 2 ^ k * 2 ^ k := by
  have hshift : x &&& ~~~BitVec.ofNat w (2 ^ k - 1) = (x >>> k) <<< k := by
    apply BitVec.eq_of_getLsbD_eq
    intro i hi
    rw [BitVec.getLsbD_and, BitVec.getLsbD_not, BitVec.getLsbD_ofNat, Nat.testBit_two_pow_sub_one,
      BitVec.getLsbD_shiftLeft, BitVec.getLsbD_ushiftRight]
    by_cases hlow : i < k
    · simp [hi, hlow]
    · simp [hi, hlow, Nat.add_sub_cancel' (Nat.not_lt.1 hlow)]
  have hle := Nat.div_mul_le_self x.toNat (2 ^ k)
  rw [hshift, BitVec.toNat_shiftLeft, BitVec.toNat_ushiftRight, Nat.shiftRight_eq_div_pow,
    Nat.shiftLeft_eq, Nat.mod_eq_of_lt (Nat.lt_of_le_of_lt hle x.isLt)]

/-- The multiple of 16 at or below a word. -/
theorem toNat_align (x : UInt64) : (x &&& ~~~15).toNat = x.toNat / 16 * 16 :=
  toNat_and_not_mask x.toBitVec 4

/-- The bits of a half word are among the 16 low bits. -/
theorem half_and_not_mask (x : UInt16) : x.toUInt64 &&& ~~~0xffff = 0 := by
  have hmask : (x.toUInt64 &&& ~~~0xffff).toNat = x.toUInt64.toNat / 2 ^ 16 * 2 ^ 16 :=
    toNat_and_not_mask x.toUInt64.toBitVec 16
  apply UInt64.toNat_inj.1
  rw [hmask, UInt16.toNat_toUInt64, Nat.div_eq_of_lt x.toNat_lt, Nat.zero_mul]
  rfl

/-- Bytes spell a number below a power of 256. -/
theorem ofLittleEndian_lt (bytes : List UInt8) : ofLittleEndian bytes < 256 ^ bytes.length := by
  induction bytes with
  | nil => exact Nat.one_pos
  | cons b bytes ih =>
    have hb := b.toNat_lt
    rw [ofLittleEndian, List.length_cons, Nat.pow_succ]
    omega

end EnvKernel.Word
