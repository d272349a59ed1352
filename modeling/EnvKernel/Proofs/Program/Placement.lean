import EnvKernel.Program.Placement
import EnvKernel.Proofs.Elf.Header
import EnvKernel.Proofs.Memory.Page
import Mathlib.Data.List.Forall2

/-!
What the tables of an image ask for, over the numbers: `items`. Loading works with placements instead,
which have been checked. `realized_plan` says that these are the items one by one: each region is one
that does not wrap, and the bytes that go there are those of the file and fit.
-/

namespace EnvKernel.Program

open Elf

/-- A part of the file and the memory that it is for. -/
structure Item where
  /-- The first address. -/
  start : Nat
  /-- Bytes of memory. -/
  size : Nat
  /-- Where the part begins in the file. -/
  offset : Nat
  /-- Bytes in the file. -/
  length : Nat
deriving DecidableEq, Repr

namespace Item

/-- What a piece to be loaded asks for: memory at its physical address, at least for its bytes. -/
def ofSegment (ph : ProgramHeader) : Item where
  start := ph.paddr.toNat
  size := max ph.memsz.toNat ph.filesz.toNat
  offset := ph.offset.toNat
  length := ph.filesz.toNat

/-- What a section asks for: memory for all of its bytes. -/
def ofSection (sh : SectionHeader) : Item where
  start := sh.addr.toNat
  size := sh.size.toNat
  offset := sh.offset.toNat
  length := sh.size.toNat

/-- Some address of the item's memory lies on the page of `a`. -/
def Meets (item : Item) (a : UInt64) : Prop :=
  ∃ b, item.start ≤ b ∧ b < item.start + item.size ∧ b / 4096 = a.toNat / 4096

/-- The file has a byte of the item for address `a`. -/
def Supplies (item : Item) (a : UInt64) : Prop :=
  item.start ≤ a.toNat ∧ a.toNat < item.start + item.length

instance (item : Item) (a : UInt64) : Decidable (item.Supplies a) :=
  inferInstanceAs (Decidable (_ ∧ _))

/-- The byte of the file for address `a`. -/
def byte? (item : Item) (binary : Bytes) (a : UInt64) : Option UInt8 :=
  binary.data[item.offset + (a.toNat - item.start)]?

end Item

/-- What an image asks for: pieces to be loaded that take memory, then sections with bytes in the file
and an address, each in the order of their table. -/
def items (image : Image) : List Item :=
  (image.programHeaders.filter fun ph => ph.load && max ph.memsz ph.filesz != 0).map .ofSegment ++
    (image.sectionHeaders.filter fun sh => sh.hasFileData && sh.addr != 0).map .ofSection

theorem ofSegment_mem_items {image : Image} {ph : ProgramHeader} (hph : ph ∈ image.programHeaders)
    (hload : ph.load = true) (hsize : 0 < (Item.ofSegment ph).size) : Item.ofSegment ph ∈ items image := by
  refine List.mem_append_left _ (List.mem_map_of_mem (List.mem_filter.2 ⟨hph, ?_⟩))
  have hne : max ph.memsz ph.filesz ≠ 0 := by
    intro hzero
    rw [Item.ofSegment, ← Word.toNat_max, hzero] at hsize
    cases hsize
  simp [hload, hne]

/-- A small executable with 16 bytes of memory at 0x10000. The file has the first `length` of them, the last
8 are called `.bss`. Its string table has 14 bytes, which go to `addr` unless that is zero. -/
def smallExecutable (length addr : Nat) : Bytes :=
  let word := Word.littleEndian 8
  let half := Word.littleEndian 4
  let short := Word.littleEndian 2
  let header := Elf.magic.toList ++ [2, 1, 1] ++ List.replicate 9 0 ++ short 2 ++ short 62 ++ half 1 ++
    word 0x10000 ++ word 64 ++ word 120 ++ half 0 ++ short 64 ++ short 56 ++ short 1 ++ short 64 ++
    short 2 ++ short 1
  let piece := half 1 ++ half 6 ++ word 0 ++ word 0x10000 ++ word 0x10000 ++ word length ++ word 16 ++
    word 4096
  let bss := half 1 ++ half 8 ++ word 3 ++ word 0x10008 ++ word 0 ++ word 8 ++ List.replicate 24 0
  let strtab := half 6 ++ half 3 ++ word 0 ++ word addr ++ word 248 ++ word 14 ++ List.replicate 24 0
  let names := [0, 0x2e, 0x62, 0x73, 0x73, 0, 0x2e, 0x73, 0x74, 0x72, 0x74, 0x61, 0x62, 0]
  (Bytes.ofArray? (header ++ piece ++ bss ++ strtab ++ names).toArray).getD .empty

/-- The placement is what the item asks for, and possible. -/
structure Placement.Realizes (binary : Bytes) (p : Placement) (item : Item) : Prop where
  start_eq : p.region.start.toNat = item.start
  stop_eq : p.region.stop.toNat = item.start + item.size
  length_le : item.length ≤ item.size
  size_eq : p.contents.data.size = item.length
  contents_eq : p.contents.data = binary.data.extract item.offset (item.offset + item.length)

namespace Placement.Realizes

variable {binary : Bytes} {p : Placement} {item : Item} {a : UInt64}

theorem start_le_stop (h : p.Realizes binary item) : p.region.start ≤ p.region.stop := by
  rw [UInt64.le_iff_toNat_le, h.start_eq, h.stop_eq]
  exact Nat.le_add_right _ _

/-- The item meets the pages that the region of its placement meets. -/
theorem meets_iff (h : p.Realizes binary item) : p.region.Meets a ↔ item.Meets a := by
  rw [Memory.Range.meets_iff, h.start_eq, h.stop_eq]
  constructor
  · rintro ⟨hlt, hfirst, hlast⟩
    exact ⟨max item.start (a.toNat / 4096 * 4096), by omega, by omega, by omega⟩
  · rintro ⟨b, hstart, hstop, hpage⟩
    omega

/-- The bytes of the placement are those of the file. -/
theorem getElem?_contents (h : p.Realizes binary item) (ha : item.Supplies a) :
    p.contents.data[a.toNat - item.start]? = item.byte? binary a := by
  obtain ⟨hle, hlt⟩ := ha
  rw [h.contents_eq, Item.byte?, Array.getElem?_extract, if_pos]
  have hsize := h.size_eq
  rw [h.contents_eq, Array.size_extract] at hsize
  omega

end Placement.Realizes

theorem region_eq_ok {addr size : UInt64} {range : Memory.Range} (h : region addr size = .ok range) :
    range.start = addr ∧ range.stop.toNat = addr.toNat + size.toNat := by
  rw [region] at h
  cases hstop : Word.add? addr size with
  | none => rw [hstop] at h; cases h
  | some stop =>
    rw [hstop] at h
    cases h
    exact ⟨rfl, Word.toNat_add? hstop⟩

variable {bytes : Bytes}

/-- A piece is placed exactly if it is to be loaded and takes memory. -/
theorem ofProgramHeader_eq_ok {ph : ProgramHeader} {r : Option Placement}
    (h : ofProgramHeader bytes ph = .ok r) :
    if ph.load && max ph.memsz ph.filesz != 0 then ∃ p, r = some p ∧ p.Realizes bytes (.ofSegment ph)
    else r = none := by
  rw [ofProgramHeader] at h
  by_cases hskip : (!ph.load || max ph.memsz ph.filesz == 0) = true
  · rw [if_pos hskip] at h
    cases h
    rw [if_neg]
    simpa [Bool.or_eq_true, imp_iff_not_or] using hskip
  · rw [if_neg hskip] at h
    rw [if_pos (by simpa using hskip)]
    have hplaced : ∃ contents range, region ph.paddr (max ph.memsz ph.filesz) = .ok range ∧
        contents.data.size = ph.filesz.toNat ∧
        contents.data = bytes.data.extract ph.offset.toNat (ph.offset.toNat + ph.filesz.toNat) ∧
        r = some ⟨range, contents⟩ := by
      by_cases hempty : ph.filesz = 0
      · rw [if_pos hempty] at h
        obtain ⟨contents, hcontents, h⟩ := Reading.bind_eq_ok_iff.1 h
        obtain ⟨range, hrange, h⟩ := Reading.bind_eq_ok_iff.1 h
        cases hcontents
        cases h
        have hnothing : bytes.data.extract ph.offset.toNat (ph.offset.toNat + ph.filesz.toNat) = #[] :=
          Array.extract_empty_of_stop_le_start (by rw [hempty]; exact Nat.le_refl _)
        exact ⟨_, range, hrange, by rw [hempty]; rfl, hnothing.symm, rfl⟩
      · rw [if_neg hempty] at h
        obtain ⟨contents, hcontents, h⟩ := Reading.bind_eq_ok_iff.1 h
        obtain ⟨range, hrange, h⟩ := Reading.bind_eq_ok_iff.1 h
        have hslice := Reading.mapError_eq_ok_iff.1 hcontents
        cases h
        exact ⟨_, range, hrange, Bytes.size_of_slice hslice,
          congrArg Bytes.data (Bytes.slice_eq_ok_iff.1 hslice).2, rfl⟩
    obtain ⟨contents, range, hrange, hsize, hdata, rfl⟩ := hplaced
    obtain ⟨hstart, hstop⟩ := region_eq_ok hrange
    rw [Word.toNat_max] at hstop
    exact ⟨_, rfl, {
      start_eq := congrArg UInt64.toNat hstart
      stop_eq := hstop
      length_le := Nat.le_max_right _ _
      size_eq := hsize
      contents_eq := hdata }⟩

/-- A section is placed exactly if it has bytes in the file and an address. -/
theorem ofSectionHeader_eq_ok {sh : SectionHeader} {r : Option Placement}
    (h : ofSectionHeader bytes sh = .ok r) :
    if sh.hasFileData && sh.addr != 0 then ∃ p, r = some p ∧ p.Realizes bytes (.ofSection sh)
    else r = none := by
  rw [ofSectionHeader] at h
  by_cases hskip : (!sh.hasFileData || sh.addr == 0) = true
  · rw [if_pos hskip] at h
    cases h
    rw [if_neg]
    simpa [Bool.or_eq_true, imp_iff_not_or] using hskip
  · rw [if_neg hskip] at h
    rw [if_pos (by simpa using hskip)]
    obtain ⟨range, hrange, h⟩ := Reading.bind_eq_ok_iff.1 h
    obtain ⟨contents, hcontents, h⟩ := Reading.bind_eq_ok_iff.1 h
    have hslice := Reading.mapError_eq_ok_iff.1 hcontents
    obtain ⟨hstart, hstop⟩ := region_eq_ok hrange
    cases h
    exact ⟨_, rfl, {
      start_eq := congrArg UInt64.toNat hstart
      stop_eq := hstop
      length_le := Nat.le_refl _
      size_eq := Bytes.size_of_slice hslice
      contents_eq := congrArg Bytes.data (Bytes.slice_eq_ok_iff.1 hslice).2 }⟩

/-- What a list of headers asks for is what its members ask for, one by one. -/
theorem realized_collect {α : Type} {f : α → Except ElfError (Option Placement)} {keep : α → Bool}
    {item : α → Item}
    (hf : ∀ x r, f x = .ok r → if keep x then ∃ p, r = some p ∧ p.Realizes bytes (item x) else r = none)
    {xs : List α} {ps : List Placement} (h : collect f xs = .ok ps) :
    List.Forall₂ (Placement.Realizes bytes) ps ((xs.filter keep).map item) := by
  induction xs generalizing ps with
  | nil =>
    cases h
    exact .nil
  | cons x xs ih =>
    rw [collect] at h
    obtain ⟨r, hfirst, h⟩ := Reading.bind_eq_ok_iff.1 h
    obtain ⟨rest, hrest, h⟩ := Reading.bind_eq_ok_iff.1 h
    have hr := hf x r hfirst
    cases h
    cases hkeep : keep x with
    | true =>
      rw [hkeep, if_pos rfl] at hr
      obtain ⟨p, rfl, hp⟩ := hr
      rw [List.filter_cons_of_pos hkeep]
      exact .cons hp (ih hrest)
    | false =>
      rw [hkeep] at hr
      cases hr
      rw [List.filter_cons_of_neg (by simp [hkeep])]
      exact ih hrest

/-- The placements of an image are its items. -/
theorem realized_plan {image : Image} {ps : List Placement} (h : plan image = .ok ps) :
    List.Forall₂ (Placement.Realizes image.bytes) ps (items image) := by
  rw [plan] at h
  obtain ⟨pieces, hpieces, h⟩ := Reading.bind_eq_ok_iff.1 h
  obtain ⟨sections, hsections, h⟩ := Reading.bind_eq_ok_iff.1 h
  cases h
  exact List.rel_append (realized_collect (fun _ _ => ofProgramHeader_eq_ok) hpieces)
    (realized_collect (fun _ _ => ofSectionHeader_eq_ok) hsections)

/-- An image has the bytes of its file. -/
theorem bytes_of_parse {binary : Bytes} {image : Image} (h : Image.parse binary = .ok image) :
    image.bytes = binary := by
  obtain ⟨-, rfl⟩ := (parseWith_eq_ok_iff decodes_decode).1 h
  rfl

end EnvKernel.Program
