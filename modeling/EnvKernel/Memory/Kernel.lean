import EnvKernel.Memory.Paging
import EnvKernel.Memory.Space

/-!
The memory of the running kernel: physical memory seen through the page tables. `KernelSpace` is the
address space that environments share. It gives pages frames of their own, filled with zeros; pages
that are there already stay, and one that another owner mapped gets a warning.
-/

namespace EnvKernel.Memory

/-- What physical memory holds before anything is stored there. -/
def untouchedByte : UInt8 := 0xcc

/-- Physical memory, by the first addresses of its frames. -/
structure PhysicalMemory where
  frames : Std.TreeMap UInt64 Page := {}

/-- The contents of a frame. -/
def PhysicalMemory.frame (p : PhysicalMemory) (base : UInt64) : Page :=
  (p.frames[base]?).getD (Page.fill untouchedByte)

/-- Physical memory and the way to it. -/
structure KernelMemory where
  manager : MemoryManager := {}
  physical : PhysicalMemory := {}

namespace KernelMemory

instance : PageStore KernelMemory where
  page? m base := (m.manager.tables.frame? base).map m.physical.frame
  setPage m base page :=
    match m.manager.tables.frame? base with
    | some frame => { m with physical := ⟨m.physical.frames.insert frame page⟩ }
    | none => m

/-- A computation on tables and frames. -/
def onManager {ε α : Type} (x : Action MemoryManager ε α) : Action KernelMemory ε α :=
  x.onPart KernelMemory.manager fun manager m => { m with manager }

/-- The bytes from `addr` on, if all of them are there. Each address stands for the one that the processor
takes it as. -/
def look? (m : KernelMemory) (addr : UInt64) (len : Nat) : Option (Array UInt8) := do
  let bytes ← (List.range len).mapM fun i => do
    let place ← Word.advance? addr i
    byte? m (← virtual? place)
  return bytes.toArray

end KernelMemory

/-- The kernel's memory, and the pages that were mapped through this space. -/
structure KernelSpace where
  memory : KernelMemory
  own : List UInt64 := []

namespace KernelSpace

/-- The page at `base`, whose address may be one that the processor does not take, has a frame. -/
def isMapped (s : KernelSpace) (base : UInt64) : Bool :=
  match virtual? base with
  | some page => (s.memory.manager.tables.toPhysical? page).isSome
  | none => false

/-- Gives the page `page` a fresh frame of zeros. The address `base` that it was asked for by is what
the space remembers. -/
def addFresh (base page : UInt64) : Action KernelSpace MemoryError Unit := do
  let mapping := (KernelMemory.onManager (MemoryManager.map page)).onPart KernelSpace.memory
    fun memory s => { s with memory }
  match ← Action.attempt mapping with
  | .error e =>
    Action.log (.mapFailed page e)
    Action.fail (.mapFailed base)
  | .ok _ =>
    Action.update fun s =>
      { memory := PageStore.setPage s.memory page (Page.fill 0), own := base :: s.own }

/-- Makes sure that the page at `base` is there. -/
def addPage (base : UInt64) : Action KernelSpace MemoryError Unit := do
  match virtual? base with
  | none => Action.fail (.mapFailed base)
  | some page =>
    let s ← Action.state
    if s.isMapped page then
      if s.own.contains base then return () else Action.log (.alreadyMapped base)
    else addFresh base page

/-- Adds `count` pages of a run from number `i` on, up to the first that fails. -/
def addPages (run : PageRun) : Nat → Nat → Action KernelSpace MemoryError Unit
  | 0, _ => return ()
  | count + 1, i => do
    addPage (run.base i)
    addPages run count (i + 1)

/-- Makes a range accessible. Pages added before a failure stay. -/
def map (range : Range) : Action KernelSpace MemoryError Unit := do
  let run ← Action.ofExcept (pages range)
  addPages run run.count.toNat 0

/-- Why an access from `addr` on that needs the page at `base` is refused. -/
def refusal (addr base : UInt64) : MemoryError :=
  match virtual? base with
  | some _ => .unmapped (max base addr)
  | none => .unmapped base

/-- The pages of a run have frames, or the access from `addr` on is refused. -/
def checkMapped (s : KernelSpace) (addr : UInt64) (run : PageRun) : Except MemoryError Unit :=
  match run.find? fun base => !s.isMapped base with
  | some base => .error (refusal addr base)
  | none => .ok ()

/-- The address that a fault at `addr` names. One that the processor does not take is named by none. -/
def faultAddress (addr : UInt64) : UInt64 := if virtual? addr = some addr then addr else 0

/-- The space once the bytes of a run from `addr` on are stored whose addresses come before `place`. -/
def storeBefore (s : KernelSpace) (addr : UInt64) (source : Array UInt8) (place : UInt64) : KernelSpace :=
  { s with memory := copyIn s.memory addr (source.extract 0 (place.toNat - addr.toNat)) }

/-- Stores bytes from `addr` on, if all of their pages have frames. The bytes go to the addresses as
they were given, one after the other, so an address that the processor does not take is a fault that
leaves the bytes before it stored. -/
def write (addr : UInt64) (source : Array UInt8) : Action KernelSpace MemoryError Unit := do
  match Word.advance? addr source.size with
  | none => Action.fail (.badRange addr Word.max)
  | some stop =>
    let run ← Action.ofExcept (pages ⟨addr, stop⟩)
    let s ← Action.state
    Action.ofExcept (s.checkMapped addr run)
    match missing? s.memory run with
    | some base =>
      let place := max base addr
      Action.replace (s.storeBefore addr source place)
      Action.halt (.fault (faultAddress place))
    | none => Action.replace { s with memory := copyIn s.memory addr source }

instance : AddressSpace KernelSpace where
  map := map
  write := write

end KernelSpace

end EnvKernel.Memory
