import EnvKernel.Env.Id
import EnvKernel.Proofs.Word
import Mathlib.Tactic.Common

/-!
Handles as numbers. A handle that is not negative is `generation * 4096 + slot`, and `next` counts the
generation up from one, starting again at one after the last. `occupant slot k` is the handle of
occupant number `k` of a slot, and `toInt_occupant` is its closed form: two occupants of a slot have
the same handle exactly if their numbers agree modulo the number of generations.
-/

namespace EnvKernel.Env.EnvId

/-! ### Words whose low twelve bits are a slot -/

/-- A slot fits into the bits that a multiple of 4096 leaves free. -/
theorem toNat_or_slot {x : BitVec 32} {slot : Nat} (hx : 4096 ∣ x.toNat) (hslot : slot < 4096) :
    (x ||| BitVec.ofNat 32 slot).toNat = x.toNat + slot := by
  obtain ⟨g, hg⟩ := hx
  rw [BitVec.toNat_or, BitVec.toNat_ofNat, Nat.mod_eq_of_lt (by omega), hg,
    show 4096 * g = g <<< 12 by rw [Nat.shiftLeft_eq]; omega,
    Nat.shiftLeft_add_eq_or_of_lt hslot]

theorem toInt_eq_toNat {x : Int32} {k : Nat} (h : x.toBitVec.toNat = k) (hk : k < 2 ^ 31) :
    x.toInt = k := by
  rw [Int32.toInt, BitVec.toInt_eq_toNat_of_lt (by omega), h]

theorem toNat_of_nonneg {x : Int32} (h : 0 ≤ x.toInt) :
    (x.toBitVec.toNat : Int) = x.toInt ∧ x.toBitVec.toNat < 2 ^ 31 := by
  have := x.toBitVec.isLt
  rw [Int32.toInt, BitVec.toInt_eq_toNat_cond] at *
  split at h <;> constructor <;> omega

/-! ### The parts of a handle -/

theorem slot_eq {id : EnvId} (hid : 0 ≤ id.raw.toInt) : (id.slot : Int) = id.raw.toInt % 4096 := by
  obtain ⟨hx, -⟩ := toNat_of_nonneg hid
  rw [slot, ← hx]
  rfl

theorem toInt_generation (id : EnvId) : id.generation.toInt = id.raw.toInt / 4096 := by
  rw [generation, Int32.toInt, Int32.toBitVec_shiftRight]
  show (id.raw.toBitVec.sshiftRight 12).toInt = _
  rw [BitVec.toInt_sshiftRight, Int.shiftRight_eq_div_pow]
  rfl

theorem raw_ne_zero {id : EnvId} (h : 0 < id.raw) : id.raw ≠ 0 := by
  intro hzero
  rw [hzero] at h
  exact absurd h (by decide)

theorem isNone_of_pos {id : EnvId} (h : 0 < id.raw) : id.isNone = false := by
  rw [isNone, beq_eq_false_iff_ne]
  exact raw_ne_zero h

/-- How many generations there are. Zero is none of them. -/
def generations : Nat := 2 ^ 19 - 1

/-- The generation after `g` is `g + 1`, and `1` after the last one. -/
theorem toInt_next {id : EnvId} {slot : Nat} (hid : 0 ≤ id.raw.toInt) (hslot : slot < 4096) :
    (id.next slot).raw.toInt = (id.raw.toInt / 4096 % generations + 1) * 4096 + slot := by
  obtain ⟨hx, hlt⟩ := toNat_of_nonneg hid
  set bits := (id.raw + 4096) &&& ~~~4095 with hbits
  have hnat : bits.toBitVec.toNat = (id.raw.toBitVec.toNat + 4096) / 4096 * 4096 := by
    rw [hbits, Int32.toBitVec_and, Int32.toBitVec_not, Int32.toBitVec_add]
    refine (Word.toNat_and_not_mask _ 12).trans ?_
    rw [show 2 ^ 12 = 4096 from rfl, BitVec.toNat_add,
      show (4096 : Int32).toBitVec.toNat = 4096 from rfl, Nat.mod_eq_of_lt (by omega)]
  have hraw : (id.next slot).raw.toBitVec =
      (if bits ≤ 0 then 4096 else bits).toBitVec ||| BitVec.ofNat 32 slot := rfl
  -- the sum leaves the positive numbers only after the last generation, and then it is -2 ^ 31
  by_cases hlast : bits.toBitVec.toNat = 2 ^ 31
  · have hneg : bits ≤ 0 := by
      rw [Int32.le_iff_toInt_le, Int32.toInt, BitVec.toInt_eq_toNat_cond, hlast]
      decide
    rw [if_pos hneg] at hraw
    have hsum : (id.next slot).raw.toBitVec.toNat = 4096 + slot :=
      hraw ▸ toNat_or_slot (Nat.dvd_refl 4096) hslot
    rw [toInt_eq_toNat hsum (by omega), generations]
    omega
  · have hpos : ¬ bits ≤ 0 := by
      rw [Int32.le_iff_toInt_le, toInt_eq_toNat rfl (by omega)]
      show ¬ (_ : Int) ≤ 0
      omega
    rw [if_neg hpos] at hraw
    have hsum : (id.next slot).raw.toBitVec.toNat = bits.toBitVec.toNat + slot :=
      hraw ▸ toNat_or_slot (hnat ▸ Nat.dvd_mul_left _ _) hslot
    rw [toInt_eq_toNat hsum (by omega), generations]
    omega

/-! ### The occupants of a slot -/

/-- The handle of occupant number `k` of a slot. Number zero is nobody. -/
def occupant (slot : Nat) : Nat → EnvId
  | 0 => none
  | k + 1 => (occupant slot k).next slot

variable {slot : Nat}

/-- The generation of an occupant is its number, counted around. -/
theorem toInt_occupant (hslot : slot < 4096) (k : Nat) :
    (occupant slot (k + 1)).raw.toInt = ((k % generations + 1) * 4096 + slot : Nat) := by
  induction k with
  | zero =>
    rw [occupant, occupant, toInt_next (by decide) hslot]
    simp [none, generations]
  | succ k ih =>
    rw [occupant, toInt_next (by omega) hslot, ih]
    simp only [generations]
    omega

theorem slot_occupant (hslot : slot < 4096) (k : Nat) : (occupant slot (k + 1)).slot = slot := by
  have h := toInt_occupant hslot k
  have := slot_eq (show 0 ≤ (occupant slot (k + 1)).raw.toInt by omega)
  omega

theorem generation_occupant (hslot : slot < 4096) (k : Nat) :
    (occupant slot (k + 1)).generation.toInt = (k % generations + 1 : Nat) := by
  have h := toInt_occupant hslot k
  rw [toInt_generation]
  omega

/-- The next occupant is one generation further, and one of the first after the last. -/
theorem generation_occupant_succ (hslot : slot < 4096) (k : Nat) :
    (occupant slot (k + 1)).generation.toInt =
      (occupant slot k).generation.toInt % generations + 1 := by
  rw [generation_occupant hslot k]
  cases k with
  | zero =>
    rw [occupant]
    decide
  | succ k =>
    rw [generation_occupant hslot k]
    simp only [generations]
    omega

theorem raw_occupant_pos (hslot : slot < 4096) (k : Nat) : 0 < (occupant slot (k + 1)).raw := by
  rw [Int32.lt_iff_toInt_lt, toInt_occupant hslot k]
  show (0 : Int) < _
  omega

/-- A slot has the same handle again after as many occupants as there are generations. -/
theorem occupant_eq_iff (hslot : slot < 4096) (j k : Nat) :
    occupant slot (j + 1) = occupant slot (k + 1) ↔ j % generations = k % generations := by
  have hj := toInt_occupant hslot j
  have hk := toInt_occupant hslot k
  constructor
  · intro h
    rw [h] at hj
    omega
  · intro h
    rw [h, ← hk] at hj
    cases hx : occupant slot (j + 1)
    cases hy : occupant slot (k + 1)
    simp_all [Int32.toInt_inj]

end EnvKernel.Env.EnvId
