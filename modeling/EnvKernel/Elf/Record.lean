import EnvKernel.Elf.Error

/-!
The fixed-size records of a 64-bit executable: file header, program headers, section headers and
symbols. Each `decode` takes exactly the bytes of one record, least significant byte first, and
keeps what loading and binding need.
-/

namespace EnvKernel.Elf

/-- Bytes of a file header. -/
def fileHeaderSize : UInt64 := 64
/-- Bytes of a program header. -/
def programHeaderSize : UInt64 := 56
/-- Bytes of a section header. -/
def sectionHeaderSize : UInt64 := 64
/-- Bytes of a symbol. -/
def symbolSize : UInt64 := 24

/-- The four bytes that every image starts with. -/
def magic : Array UInt8 := #[0x7f, 0x45, 0x4c, 0x46]

/-- The file type of executables. -/
def executableType : UInt16 := 2

/-- The class of 64-bit images. -/
def class64 : UInt8 := 2

/-- The part of the file header that loading needs. -/
structure FileHeader where
  entry : UInt64
  phoff : UInt64
  shoff : UInt64
  phentsize : UInt16
  phnum : UInt16
  shentsize : UInt16
  shnum : UInt16
  shstrndx : UInt16
deriving DecidableEq, Repr

/-- The header in the first 64 bytes of an image. Magic and class are looked at once more here,
since the place of all other fields depends on them. -/
def FileHeader.decode (raw : Bytes) : Except ElfError FileHeader :=
  if (raw.extract 0 4).data ≠ magic then .error (.header "Did not find ELF magic number")
  else if raw.field 4 1 ≠ class64.toNat then .error (.header "Invalid ELF class")
  else .ok {
    entry := UInt64.ofNat (raw.field 24 8)
    phoff := UInt64.ofNat (raw.field 32 8)
    shoff := UInt64.ofNat (raw.field 40 8)
    phentsize := UInt16.ofNat (raw.field 54 2)
    phnum := UInt16.ofNat (raw.field 56 2)
    shentsize := UInt16.ofNat (raw.field 58 2)
    shnum := UInt16.ofNat (raw.field 60 2)
    shstrndx := UInt16.ofNat (raw.field 62 2) }

/-- A program header: a piece of the file and the memory it is for. -/
structure ProgramHeader where
  /-- The piece is to be loaded. -/
  load : Bool
  offset : UInt64
  vaddr : UInt64
  paddr : UInt64
  filesz : UInt64
  memsz : UInt64
deriving DecidableEq, Repr

/-- The program header in 56 bytes. Type 1 is a piece to be loaded. -/
def ProgramHeader.decode (raw : Bytes) : ProgramHeader where
  load := raw.field 0 4 == 1
  offset := UInt64.ofNat (raw.field 8 8)
  vaddr := UInt64.ofNat (raw.field 16 8)
  paddr := UInt64.ofNat (raw.field 24 8)
  filesz := UInt64.ofNat (raw.field 32 8)
  memsz := UInt64.ofNat (raw.field 40 8)

/-- What a section holds. -/
inductive SectionKind where
  | symbolTable
  | stringTable
  /-- Takes memory and has no bytes in the file. -/
  | noBits
  | other
deriving DecidableEq, Repr

/-- The kind that a section type stands for. -/
def SectionKind.ofType : Nat → SectionKind
  | 2 => .symbolTable
  | 3 => .stringTable
  | 8 => .noBits
  | _ => .other

/-- The name of a kind of section. -/
def SectionKind.text : SectionKind → String
  | symbolTable => "SymbolTable"
  | stringTable => "StringTable"
  | noBits => "NoBits"
  | other => "Other"

/-- A section header. -/
structure SectionHeader where
  /-- Offset of the section's name in the section name table. -/
  name : UInt32
  kind : SectionKind
  addr : UInt64
  offset : UInt64
  size : UInt64
deriving DecidableEq, Repr

namespace SectionHeader

/-- The section header in 64 bytes. -/
def decode (raw : Bytes) : SectionHeader where
  name := UInt32.ofNat (raw.field 0 4)
  kind := .ofType (raw.field 4 4)
  addr := UInt64.ofNat (raw.field 16 8)
  offset := UInt64.ofNat (raw.field 24 8)
  size := UInt64.ofNat (raw.field 32 8)

/-- The section has bytes in the file. -/
def hasFileData (s : SectionHeader) : Bool := s.kind != .noBits

/-- The end of the section in memory, if it does not wrap. -/
def addrEnd? (s : SectionHeader) : Option UInt64 := Word.add? s.addr s.size

end SectionHeader

/-- A symbol. -/
structure Symbol where
  /-- Offset of the symbol's name in the symbol string table. -/
  name : UInt32
  /-- The symbol is visible to all object files. -/
  isGlobal : Bool
  /-- The symbol is a data object. -/
  isObject : Bool
  shndx : UInt16
  value : UInt64
  size : UInt64
deriving DecidableEq, Repr

namespace Symbol

/-- The symbol in 24 bytes. The byte after the name holds the binding in its upper half, 1 for global,
and the type in its lower half, 1 for an object. -/
def decode (raw : Bytes) : Symbol where
  name := UInt32.ofNat (raw.field 0 4)
  isGlobal := raw.field 4 1 / 16 == 1
  isObject := raw.field 4 1 % 16 == 1
  shndx := UInt16.ofNat (raw.field 6 2)
  value := UInt64.ofNat (raw.field 8 8)
  size := UInt64.ofNat (raw.field 16 8)

/-- A data object that all object files see, the only kind of symbol that is ever bound. -/
def isGlobalObject (s : Symbol) : Bool := s.isGlobal && s.isObject

end Symbol

end EnvKernel.Elf
