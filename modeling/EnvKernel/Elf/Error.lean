import EnvKernel.Bytes

/-!
What can be wrong with an executable image, and the text that says so.
-/

namespace EnvKernel.Elf

/-- Why an image is refused. -/
inductive ElfError where
  /-- There are fewer bytes than a file header has. -/
  | truncated (size : Nat)
  | badMagic
  /-- The file type is not that of an executable. -/
  | notExecutable (fileType : UInt16)
  /-- The class is not that of 64-bit images. -/
  | wrongClass (fileClass : UInt8)
  /-- The file header cannot be decoded. -/
  | header (reason : String)
  | badSectionEntrySize (size : UInt16)
  | badProgramEntrySize (size : UInt16)
  | badSectionNameIndex (index count : UInt16)
  | badProgramTableOffset (offset : UInt64)
  | badSectionTableOffset (offset : UInt64)
  | programTableOutOfBounds
  | sectionTableOutOfBounds
  | noEntryPoint
  /-- A region of memory that would go on past the last address. -/
  | addressOverflow (addr size : UInt64)
  | outOfBounds (read : OutOfBounds)
deriving DecidableEq, Repr

/-- The text of the error. -/
def ElfError.message : ElfError → String
  | truncated size => "image of " ++ toString size ++ " bytes is too short for an ELF header"
  | badMagic => "bad ELF magic"
  | notExecutable fileType => "not an executable (e_type " ++ toString fileType.toNat ++ ")"
  | wrongClass fileClass => "not a 64-bit image (class " ++ toString fileClass.toNat ++ ")"
  | header reason => "bad ELF header: " ++ reason
  | badSectionEntrySize size => "unexpected section header entry size " ++ toString size.toNat
  | badProgramEntrySize size => "unexpected program header entry size " ++ toString size.toNat
  | badSectionNameIndex index count =>
    "section name table index " ++ toString index.toNat ++ " is invalid for " ++
      toString count.toNat ++ " sections"
  | badProgramTableOffset offset =>
    "program header table offset " ++ Text.hex offset.toNat ++ " is invalid"
  | badSectionTableOffset offset =>
    "section header table offset " ++ Text.hex offset.toNat ++ " is invalid"
  | programTableOutOfBounds => "program header table does not fit in the image"
  | sectionTableOutOfBounds => "section header table does not fit in the image"
  | noEntryPoint => "entry point is zero"
  | addressOverflow addr size =>
    "region at " ++ Text.hex addr.toNat ++ " of " ++ Text.hex size.toNat ++
      " bytes wraps around the address space"
  | outOfBounds read => read.message

/-- The name of the check that failed. -/
def ElfError.name : ElfError → String
  | truncated _ => "Truncated"
  | badMagic => "BadMagic"
  | notExecutable _ => "NotExecutable"
  | wrongClass _ => "WrongClass"
  | header _ => "Header"
  | badSectionEntrySize _ => "BadSectionEntrySize"
  | badProgramEntrySize _ => "BadProgramEntrySize"
  | badSectionNameIndex _ _ => "BadSectionNameIndex"
  | badProgramTableOffset _ => "BadProgramTableOffset"
  | badSectionTableOffset _ => "BadSectionTableOffset"
  | programTableOutOfBounds => "ProgramTableOutOfBounds"
  | sectionTableOutOfBounds => "SectionTableOutOfBounds"
  | noEntryPoint => "NoEntryPoint"
  | addressOverflow _ _ => "AddressOverflow"
  | outOfBounds _ => "OutOfBounds"

/-- A read of an image, with its error as one of the image. -/
def reading {α : Type} (r : Except OutOfBounds α) : Except ElfError α :=
  r.mapError .outOfBounds

end EnvKernel.Elf
