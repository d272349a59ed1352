import Std.Data.TreeMap
import EnvKernel.Memory.Store

/-!
A sparse address space: pages that appear where they are asked for, filled with zeros, up to a limit
on their number if there is one. A read gives all bytes or names the first that is missing; a write
stores all bytes or none.
-/

namespace EnvKernel.Memory

/-- Pages by their first addresses, and how many there may be. -/
structure SparseSpace where
  pages : Std.TreeMap UInt64 Page := {}
  limit : Option Nat := none

namespace SparseSpace

instance : PageStore SparseSpace where
  page? s base := s.pages[base]?
  setPage s base page := { s with pages := s.pages.insert base page }

/-- The page of an address is there. -/
def isMapped (s : SparseSpace) (addr : UInt64) : Bool := s.pages.contains (pageBase addr)

/-- The number of pages. -/
def mappedPages (s : SparseSpace) : Nat := s.pages.size

/-- Joins a page to the run that begins right behind it, if there is one. -/
def joinRun (base : UInt64) : List PageRun → List PageRun
  | [] => [⟨base, 1⟩]
  | run :: runs =>
    if run.first.toNat = base.toNat + 4096 then ⟨base, run.count + 1⟩ :: runs
    else ⟨base, 1⟩ :: run :: runs

/-- The pages as runs of adjacent ones, ascending. -/
def runs (s : SparseSpace) : List PageRun := s.pages.keys.foldr joinRun []

/-- There is no room for one more page. -/
def isFull (s : SparseSpace) : Bool :=
  match s.limit with
  | none => false
  | some limit => decide (limit ≤ s.mappedPages)

/-- Makes sure that the page at `base` is there. -/
def addPage (s : SparseSpace) (base : UInt64) : Except MemoryError SparseSpace :=
  if s.pages.contains base then .ok s
  else if s.isFull then .error (.mapFailed base)
  else .ok { s with pages := s.pages.insert base (Page.fill 0) }

/-- Adds `count` pages of a run from number `i` on, up to the first that fails. -/
def addPages (s : SparseSpace) (run : PageRun) : Nat → Nat → Except MemoryError Unit × SparseSpace
  | 0, _ => (.ok (), s)
  | count + 1, i =>
    match s.addPage (run.base i) with
    | .error e => (.error e, s)
    | .ok s => s.addPages run count (i + 1)

/-- Makes a range accessible. Pages added before a failure stay. -/
def map (s : SparseSpace) (range : Range) : Except MemoryError Unit × SparseSpace :=
  match Memory.pages range with
  | .error e => (.error e, s)
  | .ok run => s.addPages run run.count.toNat 0

/-- The `len` bytes from `addr` on. -/
def read (s : SparseSpace) (addr : UInt64) (len : Nat) : Except MemoryError (Array UInt8) :=
  copyOut s addr len

/-- The word at `addr`. -/
def readWord (s : SparseSpace) (addr : UInt64) : Except MemoryError UInt64 :=
  (s.read addr 8).map Word.ofBytes

/-- Stores bytes from `addr` on, if all of their pages are there. -/
def write (s : SparseSpace) (addr : UInt64) (source : Array UInt8) :
    Except MemoryError SparseSpace :=
  match Word.advance? addr source.size with
  | none => .error (.badRange addr Word.max)
  | some stop =>
    match Memory.pages ⟨addr, stop⟩ with
    | .error e => .error e
    | .ok run =>
      match missing? s run with
      | some base => .error (.unmapped (max base addr))
      | none => .ok (copyIn s addr source)

/-- Stores a word at `addr`. -/
def writeWord (s : SparseSpace) (addr value : UInt64) : Except MemoryError SparseSpace :=
  s.write addr (Word.toBytes value)

end SparseSpace

end EnvKernel.Memory
