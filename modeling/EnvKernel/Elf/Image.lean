import EnvKernel.Elf.Record

/-!
An executable image whose file header has passed its checks, and the views of it: program headers,
section headers, section contents and symbols. `Image.parseWith` makes the checks in a fixed order and
reports the first one that fails: identity, entry sizes of the tables, section name index, offsets
of the tables, extents of the tables, entry point.
-/

namespace EnvKernel.Elf

/-- A byte image with its decoded file header. -/
structure Image where
  bytes : Bytes
  header : FileHeader
deriving DecidableEq

namespace Image

/-- The checks on the decoded header `h` of `bytes`. -/
def checkHeader (bytes : Bytes) (h : FileHeader) : Except ElfError Unit :=
  if h.shentsize.toUInt64 ≠ sectionHeaderSize then .error (.badSectionEntrySize h.shentsize)
  else if h.phentsize.toUInt64 ≠ programHeaderSize then .error (.badProgramEntrySize h.phentsize)
  else if h.shstrndx = 0 ∨ h.shstrndx = 0xffff ∨ h.shnum ≤ h.shstrndx then
    .error (.badSectionNameIndex h.shstrndx h.shnum)
  else if h.phoff = 0 ∨ bytes.size ≤ h.phoff.toNat then .error (.badProgramTableOffset h.phoff)
  else if bytes.size ≤ h.shoff.toNat then .error (.badSectionTableOffset h.shoff)
  else
    match bytes.table h.phoff h.phnum.toUInt64 programHeaderSize with
    | .error _ => .error .programTableOutOfBounds
    | .ok _ =>
      match bytes.table h.shoff h.shnum.toUInt64 sectionHeaderSize with
      | .error _ => .error .sectionTableOutOfBounds
      | .ok _ => if h.entry = 0 then .error .noEntryPoint else .ok ()

/-- The image in `bytes`, or the first check that fails. The file header is read by `decode`, once its
size, magic and class have been checked. -/
def parseWith (decode : Bytes → Except ElfError FileHeader) (bytes : Bytes) : Except ElfError Image := do
  if bytes.size < fileHeaderSize.toNat then throw (.truncated bytes.size)
  let start ← reading (bytes.slice 0 4)
  if start.data ≠ magic then throw .badMagic
  let fileType ← reading (bytes.u16At 16)
  if fileType ≠ executableType then throw (.notExecutable fileType)
  let fileClass ← reading (bytes.u8At 4)
  if fileClass ≠ class64 then throw (.wrongClass fileClass)
  let raw ← reading (bytes.slice 0 fileHeaderSize)
  let header ← decode raw
  checkHeader bytes header
  return { bytes, header }

/-- The image in `bytes`, or the first check that fails. -/
def parse (bytes : Bytes) : Except ElfError Image := parseWith FileHeader.decode bytes

/-- The address where the program starts. -/
def entry (image : Image) : UInt64 := image.header.entry

/-- The record number `i` of a table of `size` bytes each at `offset`, if it can be read. -/
def record? (bytes : Bytes) (offset size : UInt64) (i : Nat) : Option Bytes :=
  (bytes.slice (offset + UInt64.ofNat i * size) size).toOption

/-- The program headers, in the order of their table. -/
def programHeaders (image : Image) : List ProgramHeader :=
  (List.range image.header.phnum.toNat).filterMap fun i =>
    (record? image.bytes image.header.phoff programHeaderSize i).map ProgramHeader.decode

/-- The section headers, in the order of their table. -/
def sectionHeaders (image : Image) : List SectionHeader :=
  (List.range image.header.shnum.toNat).filterMap fun i =>
    (record? image.bytes image.header.shoff sectionHeaderSize i).map SectionHeader.decode

/-- The section header with the given index. -/
def section? (image : Image) (index : UInt16) : Option SectionHeader :=
  if image.header.shnum ≤ index then none
  else (record? image.bytes image.header.shoff sectionHeaderSize index.toNat).map SectionHeader.decode

/-- The section with the names of the sections, as the file header says. -/
def sectionNames? (image : Image) : Option SectionHeader := image.section? image.header.shstrndx

/-- The bytes of a section in the file. -/
def sectionData (image : Image) (s : SectionHeader) : Except OutOfBounds Bytes :=
  image.bytes.sub s.offset s.size

/-- The name of a section in the string table `names`. -/
def sectionName (names : Bytes) (s : SectionHeader) : Except OutOfBounds (Option String) :=
  names.cstrAt s.name.toUInt64

/-- The symbols of a symbol table section. Bytes at its end that are no whole symbol do not count. -/
def symbols (image : Image) (s : SectionHeader) : Except OutOfBounds (List Symbol) := do
  let data ← image.sectionData s
  return (List.range (data.size / symbolSize.toNat)).filterMap fun i =>
    (record? data 0 symbolSize i).map Symbol.decode

end Image

end EnvKernel.Elf
