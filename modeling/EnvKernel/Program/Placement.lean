import EnvKernel.Elf.Image
import EnvKernel.Memory.Page

/-!
What an executable asks for: regions of memory, and the bytes that go at the start of each. All of it
is checked against the file before any memory is touched. Pieces to be loaded come first, then the
sections that have bytes in the file and an address.
-/

namespace EnvKernel.Program

open Elf

/-- A region of memory and the bytes at its start. -/
structure Placement where
  region : Memory.Range
  contents : Bytes
deriving DecidableEq

/-- The region of `size` bytes at `addr`. -/
def region (addr size : UInt64) : Except ElfError Memory.Range :=
  match Word.add? addr size with
  | none => .error (.addressOverflow addr size)
  | some stop => .ok ⟨addr, stop⟩

/-- What a piece asks for, if it is to be loaded and takes any memory. It goes to its physical address,
and takes as much memory as it has bytes if it says less. -/
def ofProgramHeader (bytes : Bytes) (ph : ProgramHeader) : Except ElfError (Option Placement) := do
  let size := max ph.memsz ph.filesz
  if !ph.load || size == 0 then return none
  let contents ← if ph.filesz = 0 then pure Bytes.empty else reading (bytes.slice ph.offset ph.filesz)
  let region ← region ph.paddr size
  return some { region, contents }

/-- What a section asks for, if it has bytes in the file and an address. -/
def ofSectionHeader (bytes : Bytes) (sh : SectionHeader) : Except ElfError (Option Placement) := do
  if !sh.hasFileData || sh.addr == 0 then return none
  let region ← region sh.addr sh.size
  let contents ← reading (bytes.slice sh.offset sh.size)
  return some { region, contents }

/-- What the members of a list ask for, in order, or the first error. -/
def collect {α : Type} (f : α → Except ElfError (Option Placement)) :
    List α → Except ElfError (List Placement)
  | [] => .ok []
  | x :: xs => do
    let first ← f x
    let rest ← collect f xs
    return first.toList ++ rest

/-- Everything that an image asks for. -/
def plan (image : Image) : Except ElfError (List Placement) := do
  let pieces ← collect (ofProgramHeader image.bytes) image.programHeaders
  let sections ← collect (ofSectionHeader image.bytes) image.sectionHeaders
  return pieces ++ sections

end EnvKernel.Program
