import EnvKernel.Memory.Kernel

/-!
The kernel's heap: a fixed range of virtual addresses that is mapped page by page when memory is set
up. At its start lies the header of the first free block, which at that time is all of it.
-/

namespace EnvKernel.Memory

/-- Where the heap is and how much of it is in use. -/
structure Heap where
  bottom : UInt64 := 0
  size : Nat := 0
  used : Nat := 0
deriving DecidableEq, Repr

/-- The first address of the heap. -/
def heapStart : UInt64 := 0x444444440000

/-- Bytes of the heap. -/
def heapSize : UInt64 := 1024 * 1024

/-- The pages of the heap. -/
def heapPages : PageRun := ⟨heapStart, heapSize / pageSize⟩

/-- The heap of which nothing is in use. -/
def freshHeap : Heap := { bottom := heapStart, size := heapSize.toNat }

/-- The header of a free block that is the last one: its size, and no block after it. -/
def lastBlockHeader (size : UInt64) : Array UInt8 := Word.toBytes size ++ Word.toBytes 0

/-- Maps the heap and makes all of it one free block. -/
def setUpHeap : Action KernelMemory MapError Heap := do
  KernelMemory.onManager (MemoryManager.mapRun heapPages heapPages.count.toNat 0)
  Action.update fun m => copyIn m heapStart (lastBlockHeader heapSize)
  return freshHeap

end EnvKernel.Memory
