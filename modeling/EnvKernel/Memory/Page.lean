import EnvKernel.Word
import EnvKernel.Text.Hex

/-!
Pages of 4096 bytes. `pages` names the pages that a range of addresses meets, as a first page and a
count, so that even the range of all addresses is a small value.
-/

namespace EnvKernel.Memory

/-- Bytes of a page. -/
def pageSize : UInt64 := 4096

/-- Why an address space refuses an operation. -/
inductive MemoryError where
  | unmapped (addr : UInt64)
  /-- No memory could be had for the page at this address. -/
  | mapFailed (addr : UInt64)
  | badRange (start stop : UInt64)
deriving DecidableEq, Repr

/-- The text of the error. -/
def MemoryError.message : MemoryError → String
  | unmapped addr => "address " ++ Text.hex addr.toNat ++ " is not mapped"
  | mapFailed addr => "failed to map page at " ++ Text.hex addr.toNat
  | badRange start stop =>
    "range " ++ Text.hex start.toNat ++ ".." ++ Text.hex stop.toNat ++ " is invalid"

/-- The name of the kind of error. -/
def MemoryError.name : MemoryError → String
  | unmapped _ => "Unmapped"
  | mapFailed _ => "MapFailed"
  | badRange _ _ => "BadRange"

/-- The addresses from `start` up to and without `stop`. -/
structure Range where
  start : UInt64
  stop : UInt64
deriving DecidableEq, Repr

/-- The first address of the page that holds `addr`. -/
def pageBase (addr : UInt64) : UInt64 := addr &&& ~~~(pageSize - 1)

/-- The place of an address within its page. -/
def pageOffset (addr : UInt64) : Nat := addr.toNat % 4096

/-- A run of `count` adjacent pages. -/
structure PageRun where
  first : UInt64
  count : UInt64
deriving DecidableEq, Repr

/-- The first address of page number `i` of the run. -/
def PageRun.base (r : PageRun) (i : Nat) : UInt64 := r.first + UInt64.ofNat i * pageSize

/-- The first addresses of the pages of the run, ascending. -/
def PageRun.bases (r : PageRun) : List UInt64 := (List.range r.count.toNat).map r.base

/-- The pages that meet a range. -/
def pages (range : Range) : Except MemoryError PageRun :=
  if range.stop < range.start then .error (.badRange range.start range.stop)
  else
    let first := pageBase range.start
    if range.start = range.stop then .ok ⟨first, 0⟩
    else .ok ⟨first, (pageBase (range.stop - 1) - first) / pageSize + 1⟩

/-- The pages that an access to `len` bytes from `addr` on touches. -/
def touched (addr : UInt64) (len : Nat) : PageRun :=
  ⟨pageBase addr, UInt64.ofNat (if len = 0 then 0 else (pageOffset addr + len - 1) / 4096 + 1)⟩

/-- The first page of the run for which `p` holds, looking at `count` pages from number `i` on. -/
def PageRun.findFrom (r : PageRun) (p : UInt64 → Bool) : Nat → Nat → Option UInt64
  | 0, _ => none
  | count + 1, i => if p (r.base i) then some (r.base i) else r.findFrom p count (i + 1)

/-- The first page of the run for which `p` holds. -/
def PageRun.find? (r : PageRun) (p : UInt64 → Bool) : Option UInt64 := r.findFrom p r.count.toNat 0

end EnvKernel.Memory
