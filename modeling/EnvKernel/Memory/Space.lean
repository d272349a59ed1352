import EnvKernel.Action
import EnvKernel.Memory.Sparse

/-!
Address spaces that images are loaded into. `map` makes a range accessible: new pages are zero, pages
that are there already stay as they are. `write` stores bytes or changes nothing.
-/

namespace EnvKernel.Memory

/-- Memory that an image can be loaded into. -/
class AddressSpace (σ : Type) where
  map : Range → Action σ MemoryError Unit
  write : UInt64 → Array UInt8 → Action σ MemoryError Unit

/-- Stores a word. -/
def writeWord {σ : Type} [AddressSpace σ] (addr value : UInt64) : Action σ MemoryError Unit :=
  AddressSpace.write addr (Word.toBytes value)

instance : AddressSpace SparseSpace where
  map range := .ofResult fun s => s.map range
  write addr source := .ofResult fun s =>
    match s.write addr source with
    | .ok s => (.ok (), s)
    | .error e => (.error e, s)

end EnvKernel.Memory
