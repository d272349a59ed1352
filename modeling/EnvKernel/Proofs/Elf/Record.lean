import EnvKernel.Proofs.Elf.Header
import Mathlib.Data.List.Basic

/-!
The views of an image are complete. The headers and symbols are read with an error dropped, so an entry
that could not be read would go missing without notice. `Complete` says that none does: each view has as
many entries as its table, entry by entry the numbers that the file has there, and no place of an entry
wraps around. What carries this from `Image.parse` to the entries is that the tables as a whole end in the
image (`lists_filterMap`).
-/

namespace EnvKernel.Elf

/-! ### Where the fields of a record are -/

/-- The program header that the 56 bytes of the image from `start` on spell. -/
structure ProgramHeader.At (b : Bytes) (start : Nat) (ph : ProgramHeader) : Prop where
  fits : start + 56 ≤ b.size
  load_iff : ph.load = true ↔ b.field start 4 = 1
  offset : ph.offset.toNat = b.field (start + 8) 8
  vaddr : ph.vaddr.toNat = b.field (start + 16) 8
  paddr : ph.paddr.toNat = b.field (start + 24) 8
  filesz : ph.filesz.toNat = b.field (start + 32) 8
  memsz : ph.memsz.toNat = b.field (start + 40) 8

/-- The section header that the 64 bytes of the image from `start` on spell. -/
structure SectionHeader.At (b : Bytes) (start : Nat) (s : SectionHeader) : Prop where
  fits : start + 64 ≤ b.size
  name : s.name.toNat = b.field start 4
  kind : s.kind = .ofType (b.field (start + 4) 4)
  addr : s.addr.toNat = b.field (start + 16) 8
  offset : s.offset.toNat = b.field (start + 24) 8
  size : s.size.toNat = b.field (start + 32) 8

/-- The symbol that the 24 bytes of the image from `start` on spell. -/
structure Symbol.At (b : Bytes) (start : Nat) (s : Symbol) : Prop where
  fits : start + 24 ≤ b.size
  name : s.name.toNat = b.field start 4
  isGlobal_iff : s.isGlobal = true ↔ b.field (start + 4) 1 >>> 4 = 1
  isObject_iff : s.isObject = true ↔ b.field (start + 4) 1 &&& 15 = 1
  shndx : s.shndx.toNat = b.field (start + 6) 2
  value : s.value.toNat = b.field (start + 8) 8
  size : s.size.toNat = b.field (start + 16) 8

section Fields

variable {b : Bytes} {start stop offset : Nat}

theorem toNat_field16 (h : start + offset + 2 ≤ stop) :
    (UInt16.ofNat ((b.extract start stop).field offset 2)).toNat = b.field (start + offset) 2 := by
  rw [UInt16.toNat_ofNat_of_lt' (Bytes.field_lt _ _ _), Bytes.field_extract h]

theorem toNat_field32 (h : start + offset + 4 ≤ stop) :
    (UInt32.ofNat ((b.extract start stop).field offset 4)).toNat = b.field (start + offset) 4 := by
  rw [UInt32.toNat_ofNat_of_lt' (Bytes.field_lt _ _ _), Bytes.field_extract h]

theorem toNat_field64 (h : start + offset + 8 ≤ stop) :
    (UInt64.ofNat ((b.extract start stop).field offset 8)).toNat = b.field (start + offset) 8 := by
  rw [UInt64.toNat_ofNat_of_lt' (Bytes.field_lt _ _ _), Bytes.field_extract h]

theorem ProgramHeader.at_decode (h : start + 56 ≤ b.size) :
    ProgramHeader.At b start (.decode (b.extract start (start + 56))) where
  fits := h
  load_iff := by
    rw [ProgramHeader.decode, beq_iff_eq, Bytes.field_extract (by omega)]
    rfl
  offset := toNat_field64 (by omega)
  vaddr := toNat_field64 (by omega)
  paddr := toNat_field64 (by omega)
  filesz := toNat_field64 (by omega)
  memsz := toNat_field64 (by omega)

theorem SectionHeader.at_decode (h : start + 64 ≤ b.size) :
    SectionHeader.At b start (.decode (b.extract start (start + 64))) where
  fits := h
  name := toNat_field32 (by omega)
  kind := congrArg SectionKind.ofType (Bytes.field_extract (by omega))
  addr := toNat_field64 (by omega)
  offset := toNat_field64 (by omega)
  size := toNat_field64 (by omega)

theorem Symbol.at_decode (h : start + 24 ≤ b.size) :
    Symbol.At b start (.decode (b.extract start (start + 24))) where
  fits := h
  name := toNat_field32 (by omega)
  isGlobal_iff := by
    rw [Symbol.decode, beq_iff_eq, Bytes.field_extract (by omega), Nat.shiftRight_eq_div_pow]
  isObject_iff := by
    rw [Symbol.decode, beq_iff_eq, Bytes.field_extract (by omega), Nat.and_two_pow_sub_one_eq_mod _ 4]
  shndx := toNat_field16 (by omega)
  value := toNat_field64 (by omega)
  size := toNat_field64 (by omega)

end Fields

/-! ### The entries of a table -/

/-- The records are those of a table at `offset` with `count` entries of `size` bytes each: there are as
many, the record number `i` is the one `size * i` bytes further on, and computing that place in words gives
that number. -/
structure Lists {α : Type} (At : Nat → α → Prop) (offset size : UInt64) (count : Nat)
    (records : List α) : Prop where
  length_eq : records.length = count
  at_place : ∀ i r, records[i]? = some r → At (offset.toNat + size.toNat * i) r
  exact_place : ∀ i, i < count → (offset + UInt64.ofNat i * size).toNat = offset.toNat + size.toNat * i

section Lists

variable {α : Type} {At : Nat → α → Prop} {decode : Bytes → α}
variable {b : Bytes} {offset size : UInt64} {count i : Nat}

/-- An entry of a table that ends in the image does so too. -/
theorem place_add_le (hfits : offset.toNat + size.toNat * count ≤ b.size) (hi : i < count) :
    offset.toNat + size.toNat * i + size.toNat ≤ b.size := by
  have hle : size.toNat * (i + 1) ≤ size.toNat * count := Nat.mul_le_mul_left _ hi
  rw [Nat.mul_succ] at hle
  omega

theorem toNat_place (hfits : offset.toNat + size.toNat * count ≤ b.size) (hi : i < count) :
    (offset + UInt64.ofNat i * size).toNat = offset.toNat + size.toNat * i := by
  have hsize : b.size < 0x8000000000000000 := b.size_lt
  have hle := place_add_le hfits hi
  exact Word.toNat_add_ofNat_mul (by omega)

theorem record?_eq (hfits : offset.toNat + size.toNat * count ≤ b.size) (hi : i < count) :
    Image.record? b offset size i = some (b.extract (offset.toNat + size.toNat * i)
      (offset.toNat + size.toNat * i + size.toNat)) := by
  rw [Image.record?, Bytes.slice_of_le, toNat_place hfits hi]
  · rfl
  · rw [toNat_place hfits hi]
    exact place_add_le hfits hi

/-- Reading a table that ends in the image drops no entry. -/
theorem filterMap_record?_eq (hfits : offset.toNat + size.toNat * count ≤ b.size) :
    ((List.range count).filterMap fun i => (Image.record? b offset size i).map decode) =
      (List.range count).map fun i => decode (b.extract (offset.toNat + size.toNat * i)
        (offset.toNat + size.toNat * i + size.toNat)) := by
  refine List.filterMap_eq_map_iff_forall_eq_some.2 fun i hi => ?_
  rw [record?_eq hfits (List.mem_range.1 hi), Option.map_some]

theorem lists_filterMap (hfits : offset.toNat + size.toNat * count ≤ b.size)
    (hdecode : ∀ start, start + size.toNat ≤ b.size →
      At start (decode (b.extract start (start + size.toNat)))) :
    Lists At offset size count
      ((List.range count).filterMap fun i => (Image.record? b offset size i).map decode) where
  length_eq := by rw [filterMap_record?_eq hfits, List.length_map, List.length_range]
  at_place := by
    intro i r hr
    rw [filterMap_record?_eq hfits, List.getElem?_map, Option.map_eq_some_iff] at hr
    obtain ⟨j, hj, rfl⟩ := hr
    obtain ⟨hi, rfl⟩ := List.getElem?_eq_some_iff.1 hj
    rw [List.length_range] at hi
    rw [List.getElem_range]
    exact hdecode _ (place_add_le hfits hi)
  exact_place := fun i hi => toNat_place hfits hi

end Lists

/-! ### The views of an image -/

variable {decode : Bytes → Except ElfError FileHeader} {binary : Bytes} {image : Image}

/-- What parsing has made sure of for the tables. -/
structure Tables (binary : Bytes) (image : Image) : Prop where
  bytes_eq : image.bytes = binary
  header : image.header.Matches (.read binary)
  names_lt : image.header.shstrndx.toNat < image.header.shnum.toNat
  programs_le : image.header.phoff.toNat + 56 * image.header.phnum.toNat ≤ binary.size
  sections_le : image.header.shoff.toNat + 64 * image.header.shnum.toNat ≤ binary.size

theorem tables_of_parse (hdecode : Decodes decode) (h : Image.parseWith decode binary = .ok image) :
    Tables binary image := by
  obtain ⟨hchecks, rfl⟩ := (parseWith_eq_ok_iff hdecode).1 h
  have hm := words_matches binary
  simp only [checks, List.forall_mem_cons, decide_eq_true_eq] at hchecks
  obtain ⟨-, -, -, -, -, -, ⟨-, -, hnames⟩, -, -, hprograms, hsections, -⟩ := hchecks
  refine ⟨rfl, hm, ?_, ?_, ?_⟩
  · rwa [hm.shstrndx, hm.shnum]
  · rwa [hm.phoff, hm.phnum]
  · rwa [hm.shoff, hm.shnum]

/-- Nothing of the image `binary` is dropped from its views. -/
structure Complete (binary : Bytes) (image : Image) : Prop where
  header : image.header.Matches (.read binary)
  programHeaders : Lists (ProgramHeader.At binary) image.header.phoff programHeaderSize
    image.header.phnum.toNat image.programHeaders
  sectionHeaders : Lists (SectionHeader.At binary) image.header.shoff sectionHeaderSize
    image.header.shnum.toNat image.sectionHeaders
  section_eq : ∀ index, image.section? index = image.sectionHeaders[index.toNat]?
  section_eq_none_iff : ∀ index, image.section? index = none ↔ image.header.shnum ≤ index
  sectionNames_isSome : image.sectionNames?.isSome
  /-- A section in the file, whether it is one of the image or not, has a symbol for every 24 of its
  bytes. -/
  symbols : ∀ s : SectionHeader, s.offset.toNat + s.size.toNat ≤ binary.size →
    ∃ symbols, image.symbols s = .ok symbols ∧
      Lists (fun start => Symbol.At binary (s.offset.toNat + start)) 0 symbolSize (s.size.toNat / 24) symbols

/-- Finding a section by its index is looking it up among all of them. -/
theorem section?_eq_getElem? (h : Tables binary image) (index : UInt16) :
    image.section? index = image.sectionHeaders[index.toNat]? := by
  have hle := h.sections_le
  rw [Image.sectionHeaders, h.bytes_eq, filterMap_record?_eq hle, List.getElem?_map]
  rw [Image.section?, h.bytes_eq]
  by_cases hindex : index.toNat < image.header.shnum.toNat
  · rw [if_neg, record?_eq hle hindex, List.getElem?_range hindex]
    · rfl
    · rwa [UInt16.le_iff_toNat_le, Nat.not_le]
  · have hcount : image.header.shnum.toNat ≤ index.toNat := Nat.not_lt.1 hindex
    rw [if_pos (UInt16.le_iff_toNat_le.2 hcount), List.getElem?_eq_none, Option.map_none]
    rwa [List.length_range]

/-- The symbols of a section that lies in the file. -/
theorem symbols_of_le (hbytes : image.bytes = binary) {s : SectionHeader}
    (hle : s.offset.toNat + s.size.toNat ≤ binary.size) : ∃ symbols, image.symbols s = .ok symbols ∧
      Lists (fun start => Symbol.At binary (s.offset.toNat + start)) 0 symbolSize (s.size.toNat / 24)
        symbols := by
  have hdata := Bytes.slice_of_le hle
  have hsize : (binary.extract s.offset.toNat (s.offset.toNat + s.size.toNat)).size = s.size.toNat :=
    Bytes.size_of_slice hdata
  refine ⟨_, by rw [Image.symbols, Image.sectionData, Bytes.sub, hbytes, hdata]; rfl, ?_⟩
  rw [hsize]
  refine lists_filterMap ?_ fun start hstart => ?_
  · rw [hsize, UInt64.toNat_zero, Nat.zero_add]
    exact Nat.mul_div_le _ _
  · rw [hsize] at hstart
    have hpart : s.offset.toNat + start + 24 ≤ s.offset.toNat + s.size.toNat := by
      rw [Nat.add_assoc]
      exact Nat.add_le_add_left hstart _
    have hat := Symbol.at_decode (Nat.le_trans hpart hle)
    rw [← Bytes.extract_extract hpart] at hat
    exact hat

/-- No header and no symbol of an image that is accepted is dropped or read at a wrong place. -/
theorem views_complete (hdecode : Decodes decode) (h : Image.parseWith decode binary = .ok image) :
    Complete binary image := by
  have htables := tables_of_parse hdecode h
  have hbytes := htables.bytes_eq
  have hsections : Lists (SectionHeader.At binary) image.header.shoff sectionHeaderSize
      image.header.shnum.toNat image.sectionHeaders := by
    rw [Image.sectionHeaders, hbytes]
    exact lists_filterMap htables.sections_le fun start => SectionHeader.at_decode
  refine
    { header := htables.header, programHeaders := ?_, sectionHeaders := hsections,
      section_eq := section?_eq_getElem? htables, section_eq_none_iff := fun index => ?_,
      sectionNames_isSome := ?_, symbols := fun s => symbols_of_le hbytes }
  · rw [Image.programHeaders, hbytes]
    exact lists_filterMap htables.programs_le fun start => ProgramHeader.at_decode
  · rw [section?_eq_getElem? htables, List.getElem?_eq_none_iff, hsections.length_eq,
      UInt16.le_iff_toNat_le]
  · rw [Image.sectionNames?, section?_eq_getElem? htables, isSome_getElem?, hsections.length_eq]
    exact htables.names_lt

/-- An executable of two section headers, with two program headers that lie over them. Its section is a
symbol table in the file header, of two symbols and two bytes more. -/
def overlaid : Bytes :=
  let word := Word.littleEndian 8
  let half := Word.littleEndian 4
  let short := Word.littleEndian 2
  let header := magic.toList ++ [2, 1, 1] ++ List.replicate 9 0 ++ short 2 ++ short 62 ++ half 1 ++
    word 0x10000 ++ word 72 ++ word 64 ++ half 0 ++ short 64 ++ short 56 ++ short 2 ++ short 64 ++
    short 2 ++ short 1
  let symtab := half 0 ++ half 2 ++ word 0 ++ word 0 ++ word 0 ++ word 50 ++ List.replicate 24 0
  (Bytes.ofArray? (header ++ List.replicate 64 0 ++ symtab).toArray).getD .empty

theorem views_complete_overlaid : Decodes FileHeader.decode ∧ ∃ image,
    Image.parse overlaid = .ok image ∧ Complete overlaid image ∧ image.programHeaders.length = 2 ∧
      (image.sectionHeaders.map fun s => (image.symbols s).toOption.map List.length) = [some 0, some 2] := by
  have hviews : ((Image.parse overlaid).toOption.map fun image => (image.programHeaders.length,
      image.sectionHeaders.map fun s => (image.symbols s).toOption.map List.length)) =
        some (2, [some 0, some 2]) := by decide +kernel
  obtain ⟨image, hparse, heq⟩ := Reading.exists_of_toOption hviews
  obtain ⟨hprograms, hsymbols⟩ := Prod.mk.inj heq
  exact ⟨decodes_decode, image, hparse, views_complete decodes_decode hparse, hprograms, hsymbols⟩

end EnvKernel.Elf
