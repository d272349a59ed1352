import EnvKernel.Word
import EnvKernel.Text.Hex

/-!
Reads from an untrusted byte image. Every read names an offset and a length and is checked against
the size of the image first, so that a bad offset is an `OutOfBounds` and never a read elsewhere.
-/

namespace EnvKernel

/-- A read of `len` bytes at `offset` that leaves an image of `size` bytes. -/
structure OutOfBounds where
  offset : UInt64
  len : UInt64
  size : Nat
deriving DecidableEq, Repr

/-- The text of the error. -/
def OutOfBounds.message (e : OutOfBounds) : String :=
  "read of " ++ toString e.len.toNat ++ " bytes at offset " ++ Text.hex e.offset.toNat ++
    " is outside of the " ++ toString e.size ++ " byte image"

/-- An image of bytes. No object in memory takes more than half of the address space. -/
structure Bytes where
  data : Array UInt8
  size_lt : data.size < 0x8000000000000000
deriving DecidableEq

namespace Bytes

/-- The image with these bytes, unless there are too many. -/
def ofArray? (data : Array UInt8) : Option Bytes :=
  if h : data.size < 0x8000000000000000 then some ⟨data, h⟩ else none

/-- The image without bytes. -/
def empty : Bytes := ⟨#[], by decide⟩

/-- The number of bytes. -/
def size (b : Bytes) : Nat := b.data.size

/-- An image of no bytes. -/
def isEmpty (b : Bytes) : Bool := b.data.isEmpty

/-- The bytes from `start` up to `stop`, as far as there are any. -/
def extract (b : Bytes) (start stop : Nat) : Bytes :=
  ⟨b.data.extract start stop, by
    have := b.size_lt
    simp only [Array.size_extract]
    omega⟩

/-- The number that `width` bytes from `start` on spell, least significant byte first. -/
def field (b : Bytes) (start width : Nat) : Nat :=
  Word.ofLittleEndian (b.data.extract start (start + width)).toList

/-- The error of a read. -/
def outOfBounds (b : Bytes) (offset len : UInt64) : OutOfBounds := ⟨offset, len, b.size⟩

/-- `len` bytes from `offset` on, if all of them lie in the image. -/
def slice (b : Bytes) (offset len : UInt64) : Except OutOfBounds Bytes :=
  match Word.add? offset len with
  | none => .error (b.outOfBounds offset len)
  | some stop =>
    if b.size < stop.toNat then .error (b.outOfBounds offset len)
    else .ok (b.extract offset.toNat stop.toNat)

/-- A table of `count` entries of `entrySize` bytes each at `offset`. -/
def table (b : Bytes) (offset count entrySize : UInt64) : Except OutOfBounds Bytes :=
  match Word.mul? count entrySize with
  | none => .error (b.outOfBounds offset Word.max)
  | some len => b.slice offset len

/-- The view of `len` bytes from `offset` on, which reads on its own from then on. -/
def sub (b : Bytes) (offset len : UInt64) : Except OutOfBounds Bytes := b.slice offset len

/-- The byte at `offset`. -/
def u8At (b : Bytes) (offset : UInt64) : Except OutOfBounds UInt8 :=
  (b.slice offset 1).map fun raw => UInt8.ofNat (raw.field 0 1)

/-- The 16-bit word at `offset`. -/
def u16At (b : Bytes) (offset : UInt64) : Except OutOfBounds UInt16 :=
  (b.slice offset 2).map fun raw => UInt16.ofNat (raw.field 0 2)

/-- The 32-bit word at `offset`. -/
def u32At (b : Bytes) (offset : UInt64) : Except OutOfBounds UInt32 :=
  (b.slice offset 4).map fun raw => UInt32.ofNat (raw.field 0 4)

/-- The 64-bit word at `offset`. -/
def u64At (b : Bytes) (offset : UInt64) : Except OutOfBounds UInt64 :=
  (b.slice offset 8).map fun raw => UInt64.ofNat (raw.field 0 8)

/-- The text that the bytes encode, if they are UTF-8. -/
def text? (b : Bytes) : Option String := String.fromUTF8? ⟨b.data⟩

/-- The string at `offset`, up to the first zero byte, which has to lie in the image. Bytes that are
not UTF-8 give `none`. -/
def cstrAt (b : Bytes) (offset : UInt64) : Except OutOfBounds (Option String) := do
  let rest ← b.slice offset (UInt64.ofNat (b.size - offset.toNat))
  match rest.data.findIdx? (· == 0) with
  | none => .error (b.outOfBounds offset (UInt64.ofNat (rest.size + 1)))
  | some n => .ok (rest.extract 0 n).text?

end Bytes

end EnvKernel
