import EnvKernel.Memory.Page

/-!
Bytes kept in pages. A `PageStore` gives and takes whole pages by their first address; copying in
and out of a run of addresses goes page by page and is written once for every store. `byte?` is the
flat view: the byte at an address, if its page is there.
-/

namespace EnvKernel.Memory

/-- The contents of a page. -/
abbrev Page := Vector UInt8 4096

/-- A page whose bytes are all `b`. -/
def Page.fill (b : UInt8) : Page := Vector.replicate 4096 b

/-- The page with `count` of its bytes from `offset` on taken from `source`, from `start` on. -/
def Page.splice (page : Page) (offset : Nat) (source : Array UInt8) (start count : Nat) : Page :=
  Vector.ofFn fun i =>
    if offset ≤ i.val ∧ i.val < offset + count then source.getD (start + (i.val - offset)) page[i]
    else page[i]

/-- A store of pages, named by their first addresses. -/
class PageStore (σ : Type) where
  page? : σ → UInt64 → Option Page
  setPage : σ → UInt64 → Page → σ

variable {σ : Type} [PageStore σ]

/-- The byte at an address. -/
def byte? (s : σ) (addr : UInt64) : Option UInt8 :=
  (PageStore.page? s (pageBase addr)).map fun page => page.toArray.getD (pageOffset addr) 0

/-- The bytes from place `done` up to `len` of the run that begins at `addr`, behind `copied`. -/
def copyOutFrom (s : σ) (addr : UInt64) (len done : Nat) (copied : Array UInt8) :
    Except MemoryError (Array UInt8) :=
  if done < len then
    match Word.advance? addr done with
    | none => .error (.unmapped addr)
    | some place =>
      match PageStore.page? s (pageBase place) with
      | none => .error (.unmapped place)
      | some page =>
        let offset := pageOffset place
        let count := min (4096 - offset) (len - done)
        copyOutFrom s addr len (done + count) (copied ++ page.toArray.extract offset (offset + count))
  else .ok copied
termination_by len - done
decreasing_by
  have : pageOffset place < 4096 := Nat.mod_lt _ (by decide)
  omega

/-- The `len` bytes from `addr` on. -/
def copyOut (s : σ) (addr : UInt64) (len : Nat) : Except MemoryError (Array UInt8) :=
  copyOutFrom s addr len 0 #[]

/-- Stores the bytes of `source` from place `done` on, the first of all at `addr`. Bytes whose page is
not there are passed over. -/
def copyInFrom (s : σ) (addr : UInt64) (source : Array UInt8) (done : Nat) : σ :=
  if done < source.size then
    let place := addr + UInt64.ofNat done
    let offset := pageOffset place
    let count := min (4096 - offset) (source.size - done)
    let next :=
      match PageStore.page? s (pageBase place) with
      | some page => PageStore.setPage s (pageBase place) (page.splice offset source done count)
      | none => s
    copyInFrom next addr source (done + count)
  else s
termination_by source.size - done
decreasing_by
  have : pageOffset (addr + UInt64.ofNat done) < 4096 := Nat.mod_lt _ (by decide)
  omega

/-- Stores bytes from `addr` on. -/
def copyIn (s : σ) (addr : UInt64) (source : Array UInt8) : σ := copyInFrom s addr source 0

/-- The first page that an access to `len` bytes at `addr` needs and the store has not. -/
def missing? (s : σ) (run : PageRun) : Option UInt64 :=
  run.find? fun base => (PageStore.page? s base).isNone

end EnvKernel.Memory
