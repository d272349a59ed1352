import EnvKernel.Elf.Image
import EnvKernel.Memory.Space
import EnvKernel.Symbol

/-!
Binding: a loaded program calls the kernel through pointers that it leaves uninitialised. Every
pointer that qualifies gets the address of the kernel function of its name, or zero. A pointer
qualifies if its symbol is a data object that all object files see and that lies in the section of
uninitialised data, the only memory for which the file has no bytes.
-/

namespace EnvKernel.Program

open Elf Env
open Memory (AddressSpace MemoryError)

/-- How many names of unknown functions a report keeps. -/
def maxReported : Nat := 8

/-- Bytes of a pointer. -/
def pointerSize : UInt64 := 8

/-- How binding went. -/
structure Report where
  bound : Nat := 0
  unresolved : Nat := 0
  /-- The first names that no function was found for. -/
  names : List String := []
deriving DecidableEq, Repr

/-- The report with one more pointer bound. -/
def Report.addBound (r : Report) : Report := { r with bound := r.bound + 1 }

/-- The report with one more pointer that no function was found for. -/
def Report.addUnresolved (r : Report) (name : String) : Report :=
  { r with
    unresolved := r.unresolved + 1
    names := if r.names.length < maxReported then r.names ++ [name] else r.names }

/-- The section is called `name`. One whose name cannot be read is not. -/
def isNamed (names : Bytes) (name : String) (s : SectionHeader) : Bool :=
  match Image.sectionName names s with
  | .ok (some text) => text == name
  | _ => false

/-- What binding needs to know of an image: the range of its uninitialised data, the names of its
symbols, and the symbols. -/
structure Pointers where
  data : Memory.Range
  names : Bytes
  symbols : List Symbol
deriving DecidableEq

/-- What is looked for, or the error that it is not there. -/
def required {α : Type} (e : BindError) : Option α → Except BindError α
  | some a => .ok a
  | none => .error e

/-- A read of the image, with its error as one of binding. -/
def inImage {α : Type} (r : Except OutOfBounds α) : Except BindError α :=
  r.mapError fun e => .malformed (.outOfBounds e)

/-- The symbols of the first symbol table. Without one there are none. -/
def allSymbols (image : Image) : Except OutOfBounds (List Symbol) :=
  match image.sectionHeaders.find? (·.kind == .symbolTable) with
  | some s => image.symbols s
  | none => .ok []

/-- The pointers of an image. -/
def pointers (image : Image) : Except BindError Pointers := do
  let nameSection ← required .noSectionNames (image.sectionNames?.filter (·.kind == .stringTable))
  let sectionNames ← inImage (image.sectionData nameSection)
  let bss ← required .noUninitializedDataSection
    (image.sectionHeaders.find? (isNamed sectionNames ".bss"))
  let stop ← required (.malformed (.addressOverflow bss.addr bss.size)) bss.addrEnd?
  let strtab ← required .noSymbolStringTable
    (image.sectionHeaders.find? fun s => s.kind == .stringTable && isNamed sectionNames ".strtab" s)
  let names ← inImage (image.sectionData strtab)
  let symbols ← inImage (allSymbols image)
  return { data := ⟨bss.addr, stop⟩, names, symbols }

/-- The symbol stands for a pointer that is to be bound. -/
def isCandidate (data : Memory.Range) (s : Symbol) : Bool :=
  s.isGlobalObject && decide (data.start ≤ s.value) &&
    match Word.add? s.value pointerSize with
    | some stop => decide (stop ≤ data.stop)
    | none => false

/-- The name of a symbol, if it can be read. -/
def symbolName? (names : Bytes) (s : Symbol) : Option String :=
  match names.cstrAt s.name.toUInt64 with
  | .ok name => name
  | .error _ => none

/-- The function for a pointer. A pointer without a readable name has none. -/
def resolution (binder : Binder) (names : Bytes) (s : Symbol) : Resolution :=
  match symbolName? names s with
  | some name => binder.resolve name
  | none => .unresolved

variable {σ : Type} [AddressSpace σ]

/-- Binds one pointer. -/
def bindPointer (binder : Binder) (names : Bytes) (report : Report) (s : Symbol) :
    Action σ MemoryError Report := do
  let found := resolution binder names s
  Memory.writeWord s.value found.addr
  let name := (symbolName? names s).getD "<invalid>"
  match found with
  | .unresolved =>
    Action.log (.unbound name)
    return report.addUnresolved name
  | _ =>
    Action.log (.bound name s.value found.addr)
    return report.addBound

/-- Binds pointers in order. -/
def bindPointers (binder : Binder) (names : Bytes) : Report → List Symbol → Action σ MemoryError Report
  | report, [] => return report
  | report, s :: rest => do
    let report ← bindPointer binder names report s
    bindPointers binder names report rest

/-- The pointers of a file. -/
def pointersOf (binary : Bytes) : Except BindError Pointers :=
  match Image.parse binary with
  | .error e => .error (.malformed e)
  | .ok image => pointers image

/-- Binds the pointers of `binary`, which has been loaded already. -/
def bind (binder : Binder) (binary : Bytes) : Action σ BindError Report :=
  match pointersOf binary with
  | .error e => Action.fail e
  | .ok p =>
    Action.mapError .memory
      (bindPointers binder p.names {} (p.symbols.filter (isCandidate p.data)))

end EnvKernel.Program
