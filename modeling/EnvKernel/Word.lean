/-!
Machine words. Sums, differences and products of 64-bit words that notice leaving the range, and the
little-endian bytes of a word. `toNat_add?` and its companions say that a result, where there is
one, is the result over the natural numbers.
-/

namespace EnvKernel.Word

/-- The sum, if it is a word. -/
def add? (a b : UInt64) : Option UInt64 :=
  if a.toNat + b.toNat < 0x10000000000000000 then some (a + b) else none

/-- The difference, if it is not negative. -/
def sub? (a b : UInt64) : Option UInt64 :=
  if b.toNat ≤ a.toNat then some (a - b) else none

/-- The product, if it is a word. -/
def mul? (a b : UInt64) : Option UInt64 :=
  if a.toNat * b.toNat < 0x10000000000000000 then some (a * b) else none

/-- The word `n` places further on, if there is one. -/
def advance? (a : UInt64) (n : Nat) : Option UInt64 :=
  if a.toNat + n < 0x10000000000000000 then some (a + UInt64.ofNat n) else none

/-- The largest word. -/
def max : UInt64 := 0xffffffffffffffff

theorem toNat_add? {a b c : UInt64} (h : add? a b = some c) : c.toNat = a.toNat + b.toNat := by
  unfold add? at h
  split at h
  · cases h
    rw [UInt64.toNat_add, Nat.mod_eq_of_lt ‹_›]
  · cases h

theorem toNat_sub? {a b c : UInt64} (h : sub? a b = some c) : c.toNat = a.toNat - b.toNat := by
  unfold sub? at h
  split at h
  · cases h
    exact UInt64.toNat_sub_of_le _ _ (UInt64.le_iff_toNat_le.2 ‹_›)
  · cases h

theorem toNat_mul? {a b c : UInt64} (h : mul? a b = some c) : c.toNat = a.toNat * b.toNat := by
  unfold mul? at h
  split at h
  · cases h
    rw [UInt64.toNat_mul, Nat.mod_eq_of_lt ‹_›]
  · cases h

theorem toNat_advance? {a c : UInt64} {n : Nat} (h : advance? a n = some c) :
    c.toNat = a.toNat + n := by
  unfold advance? at h
  split at h
  · cases h
    rw [UInt64.toNat_add, UInt64.toNat_ofNat', Nat.add_mod_mod, Nat.mod_eq_of_lt ‹_›]
  · cases h

theorem add?_eq_none_iff {a b : UInt64} : add? a b = none ↔ 0x10000000000000000 ≤ a.toNat + b.toNat := by
  simp [add?]

theorem sub?_eq_none_iff {a b : UInt64} : sub? a b = none ↔ a.toNat < b.toNat := by
  simp [sub?]

theorem mul?_eq_none_iff {a b : UInt64} : mul? a b = none ↔ 0x10000000000000000 ≤ a.toNat * b.toNat := by
  simp [mul?]

/-- The number that the bytes spell, least significant byte first. -/
def ofLittleEndian : List UInt8 → Nat
  | [] => 0
  | b :: bs => b.toNat + 256 * ofLittleEndian bs

/-- The `count` lowest bytes of a number, least significant byte first. -/
def littleEndian : Nat → Nat → List UInt8
  | 0, _ => []
  | count + 1, n => UInt8.ofNat n :: littleEndian count (n / 256)

/-- The eight bytes of a word as they lie in memory. -/
def toBytes (w : UInt64) : Array UInt8 := (littleEndian 8 w.toNat).toArray

/-- The word that eight bytes in memory hold. -/
def ofBytes (bytes : Array UInt8) : UInt64 := UInt64.ofNat (ofLittleEndian bytes.toList)

@[simp] theorem length_littleEndian (count n : Nat) : (littleEndian count n).length = count := by
  induction count generalizing n with
  | zero => rfl
  | succ count ih => simp [littleEndian, ih]

@[simp] theorem size_toBytes (w : UInt64) : (toBytes w).size = 8 := by simp [toBytes]

theorem ofLittleEndian_littleEndian (count n : Nat) :
    ofLittleEndian (littleEndian count n) = n % Nat.pow 256 count := by
  induction count generalizing n with
  | zero => simp [littleEndian, ofLittleEndian, Nat.mod_one]
  | succ count ih =>
    have h : (UInt8.ofNat n).toNat = n % 256 := UInt8.toNat_ofNat'
    have hpow : Nat.pow 256 (count + 1) = 256 * Nat.pow 256 count := Nat.pow_succ'
    rw [littleEndian, ofLittleEndian, ih, h, hpow, Nat.mod_mul]

@[simp] theorem ofBytes_toBytes (w : UInt64) : ofBytes (toBytes w) = w := by
  have h : w.toNat < Nat.pow 256 8 := w.toNat_lt
  rw [ofBytes, toBytes, List.toList_toArray, ofLittleEndian_littleEndian, Nat.mod_eq_of_lt h,
    UInt64.ofNat_toNat]

end EnvKernel.Word
