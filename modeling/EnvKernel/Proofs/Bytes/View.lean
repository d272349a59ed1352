import EnvKernel.Proofs.Bytes
import Mathlib.Data.Nat.Find

/-!
Reads of a byte image and of its views. A read takes the bytes from its offset up to some place; a string
takes those up to the first zero byte, and that one too. `reads_exact` says that a read succeeds exactly
if that place is in the image, that it gives what these bytes say and nothing else, and that a view of a
part of the image answers exactly the reads that end in that part, as the image itself answers them
further on. For the reads that do not come back `Read.checked` does the same with operations that have no
result where one would stop the program.
-/

namespace EnvKernel.Bytes

variable {b v : Bytes} {offset len : UInt64}

/-! ### What a read takes, and what it gives -/

/-- What can be read at an offset. -/
inductive Read where
  | slice (len : UInt64)
  | table (count entrySize : UInt64)
  | u8
  | u16
  | u32
  | u64
  | cstr
  | sub (len : UInt64)

/-- What a read gives. -/
inductive Value where
  | bytes (raw : Bytes)
  | u8 (w : UInt8)
  | u16 (w : UInt16)
  | u32 (w : UInt32)
  | u64 (w : UInt64)
  | text (s : Option String)
  | view (v : Bytes)

/-- Reads at an offset. -/
def Read.perform (b : Bytes) (offset : UInt64) : Read → Except OutOfBounds Value
  | slice len => (b.slice offset len).map .bytes
  | table count entrySize => (b.table offset count entrySize).map .bytes
  | u8 => (b.u8At offset).map .u8
  | u16 => (b.u16At offset).map .u16
  | u32 => (b.u32At offset).map .u32
  | u64 => (b.u64At offset).map .u64
  | cstr => (b.cstrAt offset).map .text
  | sub len => (b.sub offset len).map .view

/-- The bytes from `start` up to `stop`. -/
def window (b : Bytes) (start stop : Nat) : List UInt8 := (b.data.toList.take stop).drop start

/-- The first zero byte from `start` on is at `p`. -/
structure FirstZero (b : Bytes) (start p : Nat) : Prop where
  start_le : start ≤ p
  isZero : b.data[p]? = some 0
  first : ∀ i, start ≤ i → i < p → b.data[i]? ≠ some 0

/-- The read takes the bytes from `start` up to `stop`. -/
def Read.Takes (b : Bytes) (start stop : Nat) : Read → Prop
  | slice len => stop = start + len.toNat
  | table count entrySize => stop = start + count.toNat * entrySize.toNat
  | u8 => stop = start + 1
  | u16 => stop = start + 2
  | u32 => stop = start + 4
  | u64 => stop = start + 8
  | cstr => ∃ p, b.FirstZero start p ∧ stop = p + 1
  | sub len => stop = start + len.toNat

/-- A text has these bytes; there is none if they are not UTF-8. -/
def Spells (bytes : List UInt8) (s : Option String) : Prop :=
  ∀ t : String, s = some t ↔ t.toUTF8.data.toList = bytes

/-- What the bytes that a read takes say. -/
def Read.Gives (bytes : List UInt8) (x : Value) : Read → Prop
  | slice _ => ∃ raw : Bytes, x = .bytes raw ∧ raw.data.toList = bytes
  | table _ _ => ∃ raw : Bytes, x = .bytes raw ∧ raw.data.toList = bytes
  | u8 => ∃ w, x = .u8 w ∧ w.toNat = Word.ofLittleEndian bytes
  | u16 => ∃ w, x = .u16 w ∧ w.toNat = Word.ofLittleEndian bytes
  | u32 => ∃ w, x = .u32 w ∧ w.toNat = Word.ofLittleEndian bytes
  | u64 => ∃ w, x = .u64 w ∧ w.toNat = Word.ofLittleEndian bytes
  | cstr => ∃ s, x = .text s ∧ Spells bytes.dropLast s
  | sub _ => ∃ v : Bytes, x = .view v ∧ v.data.toList = bytes

/-! ### Reads with operations that can stop the program -/

/-- The bytes from `start` up to `stop`, which have to be there. -/
def part? (b : Bytes) (start stop : Nat) : Option Bytes :=
  if start ≤ stop ∧ stop ≤ b.size then some (b.extract start stop) else none

/-- The number that the image spells, which has to have `width` bytes. -/
def number? (b : Bytes) (width : Nat) : Option Nat := if b.size = width then some (b.field 0 width) else none

/-- Reading a slice, if nothing stops the program. -/
def slice? (b : Bytes) (offset len : UInt64) : ExceptT OutOfBounds Option Bytes :=
  match Word.add? offset len with
  | none => throw (b.outOfBounds offset len)
  | some stop =>
    if b.size < stop.toNat then throw (b.outOfBounds offset len) else b.part? offset.toNat stop.toNat

/-- Reading a number, if nothing stops the program. -/
def numberAt? (b : Bytes) (offset width : UInt64) : ExceptT OutOfBounds Option Nat := do
  (← b.slice? offset width).number? width.toNat

/-- Reading a string, if nothing stops the program. -/
def cstrAt? (b : Bytes) (offset : UInt64) : ExceptT OutOfBounds Option (Option String) := do
  let rest ← b.slice? offset (UInt64.ofNat (b.size - offset.toNat))
  match rest.data.findIdx? (· == 0) with
  | none =>
    let len ← (Word.add? (UInt64.ofNat rest.size) 1 : Option UInt64)
    throw (b.outOfBounds offset len)
  | some n => return (← (rest.part? 0 n : Option Bytes)).text?

/-- Reads at an offset, if nothing stops the program. -/
def Read.checked (b : Bytes) (offset : UInt64) : Read → ExceptT OutOfBounds Option Value
  | slice len => .bytes <$> b.slice? offset len
  | table count entrySize =>
    match Word.mul? count entrySize with
    | none => throw (b.outOfBounds offset Word.max)
    | some len => .bytes <$> b.slice? offset len
  | u8 => (.u8 <| .ofNat ·) <$> b.numberAt? offset 1
  | u16 => (.u16 <| .ofNat ·) <$> b.numberAt? offset 2
  | u32 => (.u32 <| .ofNat ·) <$> b.numberAt? offset 4
  | u64 => (.u64 <| .ofNat ·) <$> b.numberAt? offset 8
  | cstr => .text <$> b.cstrAt? offset
  | sub len => .view <$> b.slice? offset len

/-- What reads of an image come to. -/
structure ReadsExactly (b : Bytes) : Prop where
  /-- A read succeeds exactly if it ends in the image, and gives what the bytes that it takes say. -/
  ok_iff : ∀ (read : Read) offset x, read.perform b offset = .ok x ↔
    ∃ stop, read.Takes b offset.toNat stop ∧ stop ≤ b.size ∧ read.Gives (b.window offset.toNat stop) x
  /-- A table is the slice of all of its entries. -/
  table_eq : ∀ offset count entrySize len : UInt64, len.toNat = count.toNat * entrySize.toNat →
    b.table offset count entrySize = b.slice offset len
  table_error : ∀ offset count entrySize : UInt64, 0x10000000000000000 ≤ count.toNat * entrySize.toNat →
    b.table offset count entrySize = .error ⟨offset, 0xffffffffffffffff, b.size⟩
  /-- A string can be read exactly if there is a zero byte from its offset on. -/
  cstrAt_iff : ∀ offset : UInt64, (∃ s, b.cstrAt offset = .ok s) ↔
    ∃ p, offset.toNat ≤ p ∧ p < b.size ∧ b.data[p]? = some 0
  /-- Every read comes back. -/
  returns : ∀ (read : Read) offset, (read.checked b offset).run = some (read.perform b offset)
  /-- A view answers exactly the reads that end in its part of the image, as the image does. -/
  view : ∀ offset len v, b.sub offset len = .ok v → ∀ (read : Read) (p : UInt64),
    ((∃ x, read.perform v p = .ok x) ↔
      ∃ stop, read.Takes b (offset.toNat + p.toNat) stop ∧ stop ≤ offset.toNat + len.toNat) ∧
    ∀ x, read.perform v p = .ok x →
      (offset + p).toNat = offset.toNat + p.toNat ∧ read.perform b (offset + p) = .ok x

/-! ### The bytes of a part -/

theorem toList_extract_eq (b : Bytes) (start stop : Nat) :
    (b.extract start stop).data.toList = b.window start stop := by
  rw [extract, Array.toList_extract, window, List.extract_eq_take_drop, List.drop_take]

theorem eq_extract_iff {start stop : Nat} :
    v = b.extract start stop ↔ v.data.toList = b.window start stop := by
  rw [← toList_extract_eq, Array.toList_inj]
  constructor
  · rintro rfl
    rfl
  · intro h
    cases v
    simpa [extract] using h

theorem getElem?_extract {start stop i : Nat} (h : stop ≤ b.size) :
    (b.extract start stop).data[i]? = if start + i < stop then b.data[start + i]? else none := by
  rw [size] at h
  rw [extract, Array.getElem?_extract, Nat.min_eq_left h]
  exact if_congr (by omega) rfl rfl

theorem field_eq (b : Bytes) (start width : Nat) :
    b.field start width = Word.ofLittleEndian (b.window start (start + width)) :=
  congrArg Word.ofLittleEndian (toList_extract_eq b start (start + width))

/-! ### Each kind of read -/

/-- A number is read exactly if it ends in the image, and is the one that its bytes spell. -/
theorem number_eq_ok_iff {α : Type} {ofNat : Nat → α} {toNat : α → Nat} {w : α}
    (h : ∀ n < 256 ^ len.toNat, ofNat n = w ↔ toNat w = n) :
    ((b.slice offset len).map fun raw => ofNat (raw.field 0 len.toNat)) = .ok w ↔
      offset.toNat + len.toNat ≤ b.size ∧
        toNat w = Word.ofLittleEndian (b.window offset.toNat (offset.toNat + len.toNat)) := by
  have hnumber : (b.extract offset.toNat (offset.toNat + len.toNat)).field 0 len.toNat =
      b.field offset.toNat len.toNat := field_extract (Nat.le_refl _)
  rw [← field_eq, ← h _ (b.field_lt _ _), ← hnumber, Reading.map_eq_ok_iff]
  constructor
  · rintro ⟨raw, hraw, hw⟩
    obtain ⟨hle, rfl⟩ := slice_eq_ok_iff.1 hraw
    exact ⟨hle, hw⟩
  · rintro ⟨hle, hw⟩
    exact ⟨_, slice_of_le hle, hw⟩

/-- Bytes that are UTF-8 are the text that they encode. -/
theorem spells_text? (b : Bytes) : Spells b.data.toList b.text? := by
  intro t
  rw [text?, String.fromUTF8?, String.toUTF8, Array.toList_inj]
  constructor
  · intro h
    split at h
    · rw [← Option.some_inj.1 h]
      rfl
    · cases h
  · intro h
    have hbytes : t.toByteArray = ⟨b.data⟩ := ByteArray.ext h
    have hvalid : ByteArray.IsValidUTF8 ⟨b.data⟩ := hbytes ▸ t.isValidUTF8
    rw [dif_pos hvalid, Option.some_inj, ← String.toByteArray_inj, hbytes]
    rfl

theorem Spells.unique {bytes : List UInt8} {s s' : Option String} (h : Spells bytes s)
    (h' : Spells bytes s') : s = s' :=
  Option.ext fun t => (h t).trans (h' t).symm

theorem FirstZero.unique {start p q : Nat} (hp : b.FirstZero start p) (hq : b.FirstZero start q) : p = q := by
  rcases Nat.lt_trichotomy p q with hlt | heq | hgt
  · exact absurd hp.isZero (hq.first p hp.start_le hlt)
  · exact heq
  · exact absurd hq.isZero (hp.first q hq.start_le hgt)

theorem FirstZero.lt_size {start p : Nat} (h : b.FirstZero start p) : p < b.size :=
  (Array.getElem?_eq_some_iff.1 h.isZero).1

/-- Searching the rest of the image finds its first zero byte. -/
theorem findIdx?_rest_eq_some_iff {start n : Nat} :
    (b.extract start b.size).data.findIdx? (· == 0) = some n ↔ b.FirstZero start (start + n) := by
  have hget : ∀ i, (b.extract start b.size).data[i]? = b.data[start + i]? := by
    intro i
    rw [getElem?_extract (Nat.le_refl _)]
    split
    · rfl
    · exact (Array.getElem?_eq_none (Nat.not_lt.1 ‹_›)).symm
  rw [Array.findIdx?_eq_some_iff_getElem]
  constructor
  · rintro ⟨hn, hzero, hbefore⟩
    refine ⟨Nat.le_add_right _ _, ?_, fun i hle hlt hi => ?_⟩
    · rw [← hget, Array.getElem?_eq_getElem hn]
      exact congrArg some (eq_of_beq hzero)
    · obtain ⟨j, rfl⟩ := Nat.exists_eq_add_of_le hle
      have hj : j < n := Nat.lt_of_add_lt_add_left hlt
      rw [← hget, Array.getElem?_eq_getElem (Nat.lt_trans hj hn), Option.some_inj] at hi
      exact hbefore j hj (beq_of_eq hi)
  · rintro ⟨-, hzero, hbefore⟩
    rw [← hget] at hzero
    obtain ⟨hn, hzero⟩ := Array.getElem?_eq_some_iff.1 hzero
    refine ⟨hn, beq_of_eq hzero, fun j hj hj0 => ?_⟩
    refine hbefore (start + j) (Nat.le_add_right _ _) (Nat.add_lt_add_left hj _) ?_
    rw [← hget, Array.getElem?_eq_getElem (Nat.lt_trans hj hn)]
    exact congrArg some (eq_of_beq hj0)

/-- The bytes of a string are those in front of the zero byte that ends it. -/
theorem dropLast_window {start p : Nat} (h : b.FirstZero start p) :
    (b.window start (p + 1)).dropLast = b.window start p := by
  have hlt : p < b.data.size := h.lt_size
  have hle := h.start_le
  rw [window, window, List.drop_take, List.drop_take, List.dropLast_eq_take, List.length_take,
    List.length_drop, Array.length_toList, List.take_take]
  congr 1
  omega

theorem spells_window {start p : Nat} (h : b.FirstZero start p) :
    Spells (b.window start (p + 1)).dropLast (b.extract start p).text? := by
  rw [dropLast_window h, ← toList_extract_eq]
  exact spells_text? _

/-- The rest of the image, if the offset is in it. -/
theorem rest_eq_ok_iff : b.slice offset (UInt64.ofNat (b.size - offset.toNat)) = .ok v ↔
    offset.toNat ≤ b.size ∧ v = b.extract offset.toNat b.size := by
  have hsize : b.size < 0x8000000000000000 := b.size_lt
  have hlen : (UInt64.ofNat (b.size - offset.toNat)).toNat = b.size - offset.toNat :=
    UInt64.toNat_ofNat_of_lt' (Nat.lt_of_le_of_lt (Nat.sub_le _ _) (Nat.lt_trans hsize (by decide)))
  rw [slice_eq_ok_iff, hlen]
  constructor
  · rintro ⟨hle, rfl⟩
    rw [Nat.add_sub_cancel' (by omega)]
    exact ⟨by omega, rfl⟩
  · rintro ⟨hle, rfl⟩
    rw [Nat.add_sub_cancel' hle]
    exact ⟨Nat.le_refl _, rfl⟩

theorem extract_rest {start n : Nat} (h : start + n ≤ b.size) :
    (b.extract start b.size).extract 0 n = b.extract start (start + n) := by
  have hpart : (b.extract start b.size).extract 0 (0 + n) = b.extract (start + 0) (start + 0 + n) :=
    extract_extract h
  simpa using hpart

/-- A string is read exactly up to the first zero byte from its offset on. -/
theorem cstrAt_eq_ok_iff {s : Option String} : b.cstrAt offset = .ok s ↔
    ∃ p, b.FirstZero offset.toNat p ∧ s = (b.extract offset.toNat p).text? := by
  rw [cstrAt, Reading.bind_eq_ok_iff]
  constructor
  · rintro ⟨rest, hrest, htext⟩
    obtain ⟨hle, rfl⟩ := rest_eq_ok_iff.1 hrest
    cases hfound : (b.extract offset.toNat b.size).data.findIdx? (· == 0) with
    | none =>
      rw [hfound] at htext
      cases htext
    | some n =>
      have hzero := findIdx?_rest_eq_some_iff.1 hfound
      rw [hfound] at htext
      refine ⟨_, hzero, ?_⟩
      rw [← extract_rest (Nat.le_of_lt hzero.lt_size)]
      exact (Except.ok.inj htext).symm
  · rintro ⟨p, hzero, rfl⟩
    obtain ⟨n, rfl⟩ := Nat.exists_eq_add_of_le hzero.start_le
    have hle : offset.toNat ≤ b.size := Nat.le_trans (Nat.le_add_right _ n) (Nat.le_of_lt hzero.lt_size)
    refine ⟨_, rest_eq_ok_iff.2 ⟨hle, rfl⟩, ?_⟩
    rw [findIdx?_rest_eq_some_iff.2 hzero, ← extract_rest (Nat.le_of_lt hzero.lt_size)]

/-! ### All kinds of reads -/

/-- A read of `n` bytes that succeeds exactly if they are in the image, whatever it makes of them. -/
theorem map_eq_ok_iff_of_le {α : Type} {get : Except OutOfBounds α} {wrap : α → Value} {x : Value}
    {start n : Nat} (gives : α → List UInt8 → Prop)
    (hget : ∀ a, get = .ok a ↔ start + n ≤ b.size ∧ gives a (b.window start (start + n))) :
    get.map wrap = .ok x ↔
      ∃ stop, stop = start + n ∧ stop ≤ b.size ∧ ∃ a, x = wrap a ∧ gives a (b.window start stop) := by
  rw [Reading.map_eq_ok_iff]
  constructor
  · rintro ⟨a, ha, rfl⟩
    obtain ⟨hle, hgives⟩ := (hget a).1 ha
    exact ⟨_, rfl, hle, a, rfl, hgives⟩
  · rintro ⟨_, rfl, hle, a, rfl, hgives⟩
    exact ⟨a, (hget a).2 ⟨hle, hgives⟩, rfl⟩

/-- A read succeeds exactly if it ends in the image, and gives what the bytes that it takes say. -/
theorem perform_eq_ok_iff (read : Read) (offset : UInt64) (x : Value) : read.perform b offset = .ok x ↔
    ∃ stop, read.Takes b offset.toNat stop ∧ stop ≤ b.size ∧ read.Gives (b.window offset.toNat stop) x := by
  cases read with
  | slice len =>
    refine map_eq_ok_iff_of_le (fun (raw : Bytes) bytes => raw.data.toList = bytes) fun raw => ?_
    rw [slice_eq_ok_iff, eq_extract_iff]
  | table count entrySize =>
    refine map_eq_ok_iff_of_le (fun (raw : Bytes) bytes => raw.data.toList = bytes) fun raw => ?_
    rw [table_eq_ok_iff, eq_extract_iff]
  | u8 =>
    refine map_eq_ok_iff_of_le (fun (w : UInt8) bytes => w.toNat = Word.ofLittleEndian bytes) fun w =>
      number_eq_ok_iff fun n hn => ?_
    rw [← UInt8.toNat_inj, UInt8.toNat_ofNat_of_lt' hn, eq_comm]
  | u16 =>
    refine map_eq_ok_iff_of_le (fun (w : UInt16) bytes => w.toNat = Word.ofLittleEndian bytes) fun w =>
      number_eq_ok_iff fun n hn => ?_
    rw [← UInt16.toNat_inj, UInt16.toNat_ofNat_of_lt' hn, eq_comm]
  | u32 =>
    refine map_eq_ok_iff_of_le (fun (w : UInt32) bytes => w.toNat = Word.ofLittleEndian bytes) fun w =>
      number_eq_ok_iff fun n hn => ?_
    rw [← UInt32.toNat_inj, UInt32.toNat_ofNat_of_lt' hn, eq_comm]
  | u64 =>
    refine map_eq_ok_iff_of_le (fun (w : UInt64) bytes => w.toNat = Word.ofLittleEndian bytes) fun w =>
      number_eq_ok_iff fun n hn => ?_
    rw [← UInt64.toNat_inj, UInt64.toNat_ofNat_of_lt' hn, eq_comm]
  | cstr =>
    rw [Read.perform, Reading.map_eq_ok_iff]
    constructor
    · rintro ⟨s, hs, rfl⟩
      obtain ⟨p, hzero, rfl⟩ := cstrAt_eq_ok_iff.1 hs
      exact ⟨p + 1, ⟨p, hzero, rfl⟩, hzero.lt_size, _, rfl, spells_window hzero⟩
    · rintro ⟨_, ⟨p, hzero, rfl⟩, -, s, rfl, hs⟩
      exact ⟨s, cstrAt_eq_ok_iff.2 ⟨p, hzero, hs.unique (spells_window hzero)⟩, rfl⟩
  | sub len =>
    refine map_eq_ok_iff_of_le (fun (v : Bytes) bytes => v.data.toList = bytes) fun v => ?_
    rw [sub, slice_eq_ok_iff, eq_extract_iff]

/-! ### Reads that come back -/

/-- A slice lies in the image wherever it is taken out of it. -/
theorem slice?_eq (b : Bytes) (offset len : UInt64) :
    (b.slice? offset len).run = some (b.slice offset len) := by
  rw [slice?, slice]
  cases hstop : Word.add? offset len with
  | none => rfl
  | some stop =>
    have hvalue := Word.toNat_add? hstop
    dsimp only
    by_cases hlt : b.size < stop.toNat
    · rw [if_pos hlt, if_pos hlt]
      rfl
    · rw [if_neg hlt, if_neg hlt]
      have hpart : b.part? offset.toNat stop.toNat = some (b.extract offset.toNat stop.toNat) :=
        if_pos ⟨by omega, Nat.not_lt.1 hlt⟩
      rw [hpart]
      rfl

/-- A slice has all the bytes of the number that is taken from it. -/
theorem numberAt?_eq (b : Bytes) (offset width : UInt64) : (b.numberAt? offset width).run =
    some ((b.slice offset width).map fun raw => raw.field 0 width.toNat) := by
  rw [numberAt?, ExceptT.run_bind, slice?_eq]
  cases hslice : b.slice offset width with
  | error e => rfl
  | ok raw =>
    have hnumber : raw.number? width.toNat = some (raw.field 0 width.toNat) := if_pos (size_of_slice hslice)
    simp only [Option.bind_eq_bind, Option.bind_some, hnumber]
    rfl

/-- All four kinds of numbers are made from what their bytes spell. -/
theorem map_numberAt?_eq {α : Type} (ofNat : Nat → α) (wrap : α → Value) (b : Bytes) (offset width : UInt64) :
    ((fun n => wrap (ofNat n)) <$> b.numberAt? offset width).run =
      some (((b.slice offset width).map fun raw => ofNat (raw.field 0 width.toNat)).map wrap) := by
  rw [ExceptT.run_map, numberAt?_eq]
  cases b.slice offset width <;> rfl

/-- The zero byte that is found is in the rest of the image, whose length is far from the largest word. -/
theorem cstrAt?_eq (b : Bytes) (offset : UInt64) : (b.cstrAt? offset).run = some (b.cstrAt offset) := by
  rw [cstrAt?, cstrAt, ExceptT.run_bind, slice?_eq]
  cases b.slice offset (UInt64.ofNat (b.size - offset.toNat)) with
  | error e => rfl
  | ok rest =>
    have hsize : rest.size < 0x8000000000000000 := rest.size_lt
    change _ = some (match rest.data.findIdx? (· == 0) with
      | none => Except.error (b.outOfBounds offset (UInt64.ofNat (rest.size + 1)))
      | some n => Except.ok (rest.extract 0 n).text?)
    simp only [Option.bind_eq_bind, Option.bind_some]
    cases hfound : rest.data.findIdx? (· == 0) with
    | none =>
      have hlen : Word.add? (UInt64.ofNat rest.size) 1 = some (UInt64.ofNat (rest.size + 1)) := by
        rw [Word.add?, UInt64.toNat_ofNat_of_lt' (Nat.lt_trans hsize (by decide)), if_pos, UInt64.ofNat_add]
        · rfl
        · exact Nat.lt_trans (Nat.succ_lt_succ hsize) (by decide)
      simp only [hlen]
      rfl
    | some n =>
      have hpart : rest.part? 0 n = some (rest.extract 0 n) := by
        refine if_pos ⟨Nat.zero_le n, Nat.le_of_lt ?_⟩
        exact (Array.findIdx?_eq_some_iff_getElem.1 hfound).1
      simp only [hpart]
      rfl

theorem checked_eq (b : Bytes) (read : Read) (offset : UInt64) :
    (read.checked b offset).run = some (read.perform b offset) := by
  cases read with
  | slice len =>
    rw [Read.checked, ExceptT.run_map, slice?_eq]
    rfl
  | table count entrySize =>
    rw [Read.checked, Read.perform, table]
    cases Word.mul? count entrySize with
    | none => rfl
    | some len =>
      dsimp only
      rw [ExceptT.run_map, slice?_eq]
      rfl
  | u8 => exact map_numberAt?_eq .ofNat .u8 b offset 1
  | u16 => exact map_numberAt?_eq .ofNat .u16 b offset 2
  | u32 => exact map_numberAt?_eq .ofNat .u32 b offset 4
  | u64 => exact map_numberAt?_eq .ofNat .u64 b offset 8
  | cstr =>
    rw [Read.checked, ExceptT.run_map, cstrAt?_eq]
    rfl
  | sub len =>
    rw [Read.checked, ExceptT.run_map, slice?_eq]
    rfl

/-! ### Reads of a part of the image -/

section Part

variable {first stop : Nat} (hstop : stop ≤ b.size)

theorem window_extract {p q : Nat} (hq : first + q ≤ stop) :
    (b.extract first stop).window p q = b.window (first + p) (first + q) := by
  simp only [window, toList_extract_eq]
  rw [List.take_drop, List.drop_drop, List.take_take, Nat.min_eq_left hq]

include hstop

theorem size_extract : (b.extract first stop).size = stop - first := by
  rw [size] at hstop
  rw [size, extract, Array.size_extract, Nat.min_eq_left hstop]

/-- The first zero byte of a part is that of the image, if it is in the part. -/
theorem firstZero_extract {start p : Nat} :
    (b.extract first stop).FirstZero start p ↔
      b.FirstZero (first + start) (first + p) ∧ first + p < stop := by
  constructor
  · rintro ⟨hle, hzero, hbefore⟩
    have hlt := (Array.getElem?_eq_some_iff.1 hzero).1
    rw [← Bytes.size, size_extract hstop] at hlt
    rw [getElem?_extract hstop, if_pos (by omega)] at hzero
    refine ⟨⟨Nat.add_le_add_left hle first, hzero, fun i hi hip => ?_⟩, by omega⟩
    obtain ⟨j, rfl⟩ := Nat.exists_eq_add_of_le (Nat.le_trans (Nat.le_add_right first start) hi)
    have hj := hbefore j (Nat.le_of_add_le_add_left hi) (Nat.lt_of_add_lt_add_left hip)
    rwa [getElem?_extract hstop, if_pos (by omega)] at hj
  · rintro ⟨⟨hle, hzero, hbefore⟩, hlt⟩
    refine ⟨Nat.le_of_add_le_add_left hle, ?_, fun i hi hip => ?_⟩
    · rwa [getElem?_extract hstop, if_pos hlt]
    · rw [getElem?_extract hstop, if_pos (by omega)]
      exact hbefore (first + i) (Nat.add_le_add_left hi first) (Nat.add_lt_add_left hip first)

/-- A read takes from a part what it takes from the image, if that is in the part. -/
theorem takes_extract (read : Read) {start q : Nat} (hfirst : first ≤ stop) :
    read.Takes (b.extract first stop) start q ∧ q ≤ stop - first ↔
      read.Takes b (first + start) (first + q) ∧ first + q ≤ stop := by
  have hle : q ≤ stop - first ↔ first + q ≤ stop := by omega
  rw [hle]
  refine and_congr_left fun hq => ?_
  cases read with
  | cstr =>
    simp only [Read.Takes, firstZero_extract hstop]
    constructor
    · rintro ⟨p, ⟨hzero, -⟩, rfl⟩
      exact ⟨first + p, hzero, rfl⟩
    · rintro ⟨p, hzero, hp⟩
      obtain ⟨j, rfl⟩ := Nat.exists_eq_add_of_le (Nat.le_trans (Nat.le_add_right first start) hzero.start_le)
      exact ⟨j, ⟨hzero, by omega⟩, by omega⟩
  | _ =>
    simp only [Read.Takes]
    omega

end Part

/-- The bytes that a read takes always say something. -/
theorem Read.Takes.exists_gives {read : Read} {start stop : Nat} (h : read.Takes b start stop) :
    ∃ x, read.Gives (b.window start stop) x := by
  cases read with
  | slice len => exact ⟨_, b.extract start stop, rfl, toList_extract_eq b start stop⟩
  | table count entrySize => exact ⟨_, b.extract start stop, rfl, toList_extract_eq b start stop⟩
  | u8 =>
    subst h
    refine ⟨_, UInt8.ofNat (b.field start 1), rfl, ?_⟩
    rw [UInt8.toNat_ofNat_of_lt' (b.field_lt start 1), field_eq]
  | u16 =>
    subst h
    refine ⟨_, UInt16.ofNat (b.field start 2), rfl, ?_⟩
    rw [UInt16.toNat_ofNat_of_lt' (b.field_lt start 2), field_eq]
  | u32 =>
    subst h
    refine ⟨_, UInt32.ofNat (b.field start 4), rfl, ?_⟩
    rw [UInt32.toNat_ofNat_of_lt' (b.field_lt start 4), field_eq]
  | u64 =>
    subst h
    refine ⟨_, UInt64.ofNat (b.field start 8), rfl, ?_⟩
    rw [UInt64.toNat_ofNat_of_lt' (b.field_lt start 8), field_eq]
  | cstr =>
    obtain ⟨p, hzero, rfl⟩ := h
    exact ⟨_, (b.extract start p).text?, rfl, spells_window hzero⟩
  | sub len => exact ⟨_, b.extract start stop, rfl, toList_extract_eq b start stop⟩

/-- What a read takes lies behind its offset. -/
theorem Read.Takes.le {read : Read} {start stop : Nat} (h : read.Takes b start stop) : start ≤ stop := by
  cases read with
  | cstr =>
    obtain ⟨p, hzero, rfl⟩ := h
    exact Nat.le_succ_of_le hzero.start_le
  | _ =>
    simp only [Read.Takes] at h
    omega

/-- Behind a place with a zero byte further on there is a first one. -/
theorem exists_firstZero {start p : Nat} (hle : start ≤ p) (hzero : b.data[p]? = some 0) :
    ∃ q, b.FirstZero start q := by
  have hexists : ∃ q, start ≤ q ∧ b.data[q]? = some 0 := ⟨p, hle, hzero⟩
  obtain ⟨hstart, hfound⟩ := Nat.find_spec hexists
  exact ⟨Nat.find hexists, hstart, hfound, fun i hi hlt h => Nat.find_min hexists hlt ⟨hi, h⟩⟩

/-- A view answers a read exactly if the image has it in the part that is viewed, and as the image does. -/
theorem perform_extract_eq_ok_iff {len p : UInt64} (hle : offset.toNat + len.toNat ≤ b.size) (read : Read)
    (x : Value) : read.perform (b.extract offset.toNat (offset.toNat + len.toNat)) p = .ok x ↔
      ∃ stop, read.Takes b (offset.toNat + p.toNat) stop ∧ stop ≤ offset.toNat + len.toNat ∧
        read.Gives (b.window (offset.toNat + p.toNat) stop) x := by
  have htakes : ∀ q, read.Takes (b.extract offset.toNat (offset.toNat + len.toNat)) p.toNat q ∧
      q ≤ offset.toNat + len.toNat - offset.toNat ↔ read.Takes b (offset.toNat + p.toNat) (offset.toNat + q) ∧
        offset.toNat + q ≤ offset.toNat + len.toNat :=
    fun q => takes_extract hle read (Nat.le_add_right _ _)
  rw [perform_eq_ok_iff, size_extract hle]
  constructor
  · rintro ⟨q, hq, hqle, hgives⟩
    obtain ⟨hstop, hstople⟩ := (htakes q).1 ⟨hq, hqle⟩
    rw [window_extract hstople] at hgives
    exact ⟨_, hstop, hstople, hgives⟩
  · rintro ⟨stop, hstop, hstople, hgives⟩
    obtain ⟨q, rfl⟩ := Nat.exists_eq_add_of_le (Nat.le_trans (Nat.le_add_right _ _) hstop.le)
    obtain ⟨hq, hqle⟩ := (htakes q).2 ⟨hstop, hstople⟩
    exact ⟨q, hq, hqle, by rwa [window_extract hstople]⟩

/-- Whatever is read of an image, the read comes back, and with what the bytes that it takes say if they
are all in the image. A view is an image of its own. -/
theorem reads_exact (b : Bytes) : b.ReadsExactly where
  ok_iff := perform_eq_ok_iff
  table_eq offset count entrySize len h := by
    have hmul : Word.mul? count entrySize = some len := by
      have hlt := len.toNat_lt
      have hvalue : (count * entrySize).toNat = len.toNat := by
        rw [UInt64.toNat_mul, ← h, Nat.mod_eq_of_lt hlt]
      rw [Word.mul?, ← h, if_pos hlt, UInt64.toNat_inj.1 hvalue]
    rw [table, hmul]
  table_error offset count entrySize h := by
    rw [table, Word.mul?_eq_none_iff.2 h]
    rfl
  cstrAt_iff offset := by
    simp only [cstrAt_eq_ok_iff]
    constructor
    · rintro ⟨s, p, hzero, -⟩
      exact ⟨p, hzero.start_le, hzero.lt_size, hzero.isZero⟩
    · rintro ⟨p, hle, -, hzero⟩
      obtain ⟨q, hq⟩ := exists_firstZero hle hzero
      exact ⟨_, q, hq, rfl⟩
  returns := checked_eq b
  view offset len v hv read p := by
    rw [sub, slice_eq_ok_iff] at hv
    obtain ⟨hle, rfl⟩ := hv
    simp only [perform_extract_eq_ok_iff hle]
    constructor
    · constructor
      · rintro ⟨x, stop, hstop, hstople, -⟩
        exact ⟨stop, hstop, hstople⟩
      · rintro ⟨stop, hstop, hstople⟩
        obtain ⟨x, hx⟩ := hstop.exists_gives
        exact ⟨x, stop, hstop, hstople, hx⟩
    · rintro x ⟨stop, hstop, hstople, hgives⟩
      have hsize : b.size < 0x8000000000000000 := b.size_lt
      have hstart := hstop.le
      have hsum : (offset + p).toNat = offset.toNat + p.toNat := Word.toNat_add (by omega)
      refine ⟨hsum, (perform_eq_ok_iff read (offset + p) x).2 ⟨stop, ?_, by omega, ?_⟩⟩ <;> rwa [hsum]

/-- A view of the first part of a string: there it has no end, although the image goes on with one. -/
example : let b : Bytes := ⟨#[0x61, 0x62, 0x63, 0, 0x64], by decide⟩
    (b.cstrAt 1).toOption = some (some "bc") ∧
      ((b.sub 0 3).toOption.map fun v => (v.cstrAt 1).isOk) = some false ∧
      ((b.sub 1 3).toOption.map fun v => (v.cstrAt 1).toOption) = some (some (some "c")) := by decide +kernel

end EnvKernel.Bytes
