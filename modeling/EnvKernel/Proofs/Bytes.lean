import EnvKernel.Bytes
import EnvKernel.Proofs.Word
import Mathlib.Tactic.Common

/-!
Reads of a byte image over the numbers. `slice_eq_ok_iff` says when a read succeeds and what it gives.
Decoding is a chain of reads that ends with the first error; `Reading.bind_eq_ok_iff` takes it apart.
-/

namespace EnvKernel

namespace Reading

variable {ε ε' α β : Type} {x : Except ε α} {f : α → Except ε β} {b : β}

theorem bind_eq_ok_iff : (x >>= f) = .ok b ↔ ∃ a, x = .ok a ∧ f a = .ok b := by
  cases x with
  | error e => exact ⟨nofun, nofun⟩
  | ok a => exact ⟨fun h => ⟨a, rfl, h⟩, by rintro ⟨_, ⟨⟩, h⟩; exact h⟩

theorem bind_eq_error_iff {e : ε} : (x >>= f) = .error e ↔
    x = .error e ∨ ∃ a, x = .ok a ∧ f a = .error e := by
  cases x with
  | error e' =>
    have hfirst : (Except.error e' >>= f) = .error e' := rfl
    simp [hfirst]
  | ok a => exact ⟨fun h => .inr ⟨a, rfl, h⟩, by rintro (⟨⟨⟩⟩ | ⟨_, ⟨⟩, h⟩); exact h⟩

theorem map_eq_ok_iff {f : α → β} : x.map f = .ok b ↔ ∃ a, x = .ok a ∧ f a = b := by
  cases x <;> simp [Except.map]

theorem mapError_eq_ok_iff {g : ε → ε'} {a : α} : x.mapError g = .ok a ↔ x = .ok a := by
  cases x <;> simp [Except.mapError]

/-- A reading of which something is known has a result. -/
theorem exists_of_toOption {f : α → β} (h : x.toOption.map f = some b) : ∃ a, x = .ok a ∧ f a = b := by
  cases x with
  | error e => cases h
  | ok a => exact ⟨a, rfl, Option.some_inj.1 h⟩

end Reading

namespace Bytes

variable {bytes b : Bytes} {offset len : UInt64}

/-- A read succeeds exactly if it ends in the image, and gives the bytes that are there. -/
theorem slice_eq_ok_iff : bytes.slice offset len = .ok b ↔
    offset.toNat + len.toNat ≤ bytes.size ∧ b = bytes.extract offset.toNat (offset.toNat + len.toNat) := by
  have hsize : bytes.size < 0x8000000000000000 := bytes.size_lt
  rw [slice]
  cases hstop : Word.add? offset len with
  | none =>
    rw [Word.add?_eq_none_iff] at hstop
    simp only [reduceCtorEq, false_iff]
    omega
  | some stop =>
    have hvalue := Word.toNat_add? hstop
    dsimp only
    rw [hvalue]
    by_cases hle : offset.toNat + len.toNat ≤ bytes.size
    · simp [hle, Nat.not_lt.2 hle, eq_comm]
    · simp [hle, Nat.lt_of_not_le hle]

/-- A read fails exactly if it ends outside of the image, and tells what it asked for. -/
theorem slice_eq_error_iff {e : OutOfBounds} : bytes.slice offset len = .error e ↔
    bytes.size < offset.toNat + len.toNat ∧ e = ⟨offset, len, bytes.size⟩ := by
  rw [slice]
  cases hstop : Word.add? offset len with
  | none =>
    have hsize : bytes.size < 0x8000000000000000 := bytes.size_lt
    rw [Word.add?_eq_none_iff] at hstop
    rw [show bytes.size < offset.toNat + len.toNat ↔ True from iff_true_intro (by omega), true_and]
    simp [outOfBounds, eq_comm]
  | some stop =>
    have hvalue := Word.toNat_add? hstop
    dsimp only
    rw [hvalue]
    split <;> simp [outOfBounds, eq_comm, *]

/-- A read gives as many bytes as it asks for. -/
theorem size_of_slice (h : bytes.slice offset len = .ok b) : b.data.size = len.toNat := by
  obtain ⟨hle, rfl⟩ := slice_eq_ok_iff.1 h
  rw [size] at hle
  simp only [extract, Array.size_extract]
  omega

theorem slice_of_le (h : offset.toNat + len.toNat ≤ bytes.size) :
    bytes.slice offset len = .ok (bytes.extract offset.toNat (offset.toNat + len.toNat)) :=
  slice_eq_ok_iff.2 ⟨h, rfl⟩

/-- A table is in the image exactly if it ends there, however large its number of entries. -/
theorem table_eq_ok_iff {count entrySize : UInt64} : bytes.table offset count entrySize = .ok b ↔
    offset.toNat + count.toNat * entrySize.toNat ≤ bytes.size ∧
      b = bytes.extract offset.toNat (offset.toNat + count.toNat * entrySize.toNat) := by
  rw [table]
  cases hlen : Word.mul? count entrySize with
  | none =>
    have hsize : bytes.size < 0x8000000000000000 := bytes.size_lt
    rw [Word.mul?_eq_none_iff] at hlen
    simp only [reduceCtorEq, false_iff]
    omega
  | some len => rw [slice_eq_ok_iff, Word.toNat_mul? hlen]

/-! ### Numbers in an image -/

theorem field_lt (b : Bytes) (start width : Nat) : b.field start width < 256 ^ width := by
  refine Nat.lt_of_lt_of_le (Word.ofLittleEndian_lt _) (Nat.pow_le_pow_right (by decide) ?_)
  rw [Array.length_toList, Array.size_extract]
  omega

/-- A part of a part, where it lies in the image. -/
theorem extract_extract {first stop start len : Nat} (h : first + start + len ≤ stop) :
    (b.extract first stop).extract start (start + len) = b.extract (first + start) (first + start + len) := by
  simp only [extract, Array.extract_extract, mk.injEq]
  rw [Nat.min_eq_left (by omega), ← Nat.add_assoc]

/-- A part of an image has the numbers that the image has there. -/
theorem field_extract {first stop start width : Nat} (h : first + start + width ≤ stop) :
    (b.extract first stop).field start width = b.field (first + start) width := by
  have hpart := congrArg (fun part : Bytes => Word.ofLittleEndian part.data.toList)
    (extract_extract (b := b) h)
  exact hpart

theorem u8At_of_le (h : offset.toNat + 1 ≤ bytes.size) :
    bytes.u8At offset = .ok (UInt8.ofNat (bytes.field offset.toNat 1)) := by
  have hnumber : (bytes.extract offset.toNat (offset.toNat + 1)).field 0 1 = bytes.field offset.toNat 1 :=
    field_extract (Nat.le_refl _)
  rw [u8At, slice_of_le h, ← hnumber]
  rfl

theorem u16At_of_le (h : offset.toNat + 2 ≤ bytes.size) :
    bytes.u16At offset = .ok (UInt16.ofNat (bytes.field offset.toNat 2)) := by
  have hnumber : (bytes.extract offset.toNat (offset.toNat + 2)).field 0 2 = bytes.field offset.toNat 2 :=
    field_extract (Nat.le_refl _)
  rw [u16At, slice_of_le h, ← hnumber]
  rfl

end Bytes

end EnvKernel
