import Std.Data.TreeMap
import EnvKernel.Action
import EnvKernel.Memory.Frame

/-!
Paging. A virtual address has 48 bits that count, and the tables on the way from the root to a page are
named by how many low bits they leave undecided and by the bits above those. Mapping a page takes one
frame for the page and one for each table that is missing on the way.
-/

namespace EnvKernel.Memory

/-- The address as the processor takes it: bits 47 to 63 are all equal. An address of 48 bits is
extended by its sign; any other has no such form. -/
def virtual? (addr : UInt64) : Option UInt64 :=
  let top := addr >>> 47
  if top = 0 ∨ top = 0x1ffff then some addr
  else if top = 1 then some (addr ||| 0xffff000000000000)
  else none

/-- A table below the root. -/
structure Table where
  /-- The low bits of an address that the table and the tables below it decide on. -/
  bits : Nat
  /-- The bits above, which are the same for all addresses of the table. -/
  number : Nat
deriving DecidableEq, Repr

/-- The tables on the way to a page, from the top down. -/
def tablesFor (page : UInt64) : List Table :=
  [39, 30, 21].map fun bits => ⟨bits, page.toNat >>> bits⟩

/-- The tables that exist below the root, and the frame of each page that is mapped. Pages keep no
flags: every page that is there counts as present and writable, as those are that the kernel maps. -/
structure PageTables where
  tables : List Table := []
  pages : Std.TreeMap UInt64 UInt64 := {}

namespace PageTables

/-- The frame of the page at `base`. -/
def frame? (t : PageTables) (base : UInt64) : Option UInt64 := t.pages[base]?

/-- The physical address that a virtual one stands for. -/
def toPhysical? (t : PageTables) (addr : UInt64) : Option UInt64 :=
  (t.frame? (pageBase addr)).map fun frame => frame + UInt64.ofNat (pageOffset addr)

end PageTables

/-- The tables and the frames that new tables and pages come from. -/
structure MemoryManager where
  tables : PageTables := {}
  frames : FrameAllocator := {}

namespace MemoryManager

/-- Takes the next frame. -/
def takeFrame : Action MemoryManager MapError UInt64 := fun m =>
  match m.frames.allocate with
  | .error p => Action.panic p m
  | .ok (frame?, frames) =>
    let m := { m with frames }
    match frame? with
    | none => Action.fail .frameAllocationFailed m
    | some frame => { outcome := .ok frame, state := m }

/-- Makes sure that a table exists. -/
def demand (table : Table) : Action MemoryManager MapError Unit := do
  let m ← Action.state
  if m.tables.tables.contains table then return ()
  let _ ← takeFrame
  Action.update fun m => { m with tables := { m.tables with tables := table :: m.tables.tables } }

/-- Makes sure that several tables exist. -/
def demandAll : List Table → Action MemoryManager MapError Unit
  | [] => return ()
  | table :: rest => do
    demand table
    demandAll rest

/-- Makes `frame` the frame of a page that has none. -/
def mapTo (page frame : UInt64) : Action MemoryManager MapError Unit := do
  demandAll (tablesFor page)
  let m ← Action.state
  if (m.tables.frame? page).isSome then Action.fail (.pageAlreadyMapped frame)
  else
    Action.replace
      { m with tables := { m.tables with pages := m.tables.pages.insert page frame } }

/-- Gives a page a fresh frame, which is taken before any frame for tables. -/
def map (page : UInt64) : Action MemoryManager MapError UInt64 := do
  let frame ← takeFrame
  mapTo page frame
  return frame

/-- Gives `count` pages of a run fresh frames, from number `i` on. -/
def mapRun (run : PageRun) : Nat → Nat → Action MemoryManager MapError Unit
  | 0, _ => return ()
  | count + 1, i => do
    let _ ← map (run.base i)
    mapRun run count (i + 1)

end MemoryManager

end EnvKernel.Memory
