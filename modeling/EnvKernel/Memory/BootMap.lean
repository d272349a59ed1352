import EnvKernel.Text.Hex

/-!
The memory map that the machine boots with, and what can go wrong when a page is mapped.
-/

namespace EnvKernel.Memory

/-- What a region of physical memory is for. -/
inductive RegionKind where
  | usable
  | bootloader
  | uefi
  | bios
deriving DecidableEq, Repr

/-- A region of physical memory, from `start` up to and without `stop`. -/
structure BootRegion where
  start : UInt64
  stop : UInt64
  kind : RegionKind
deriving DecidableEq, Repr

/-- The name of a kind of region. -/
def RegionKind.text : RegionKind → String
  | usable => "Usable"
  | bootloader => "Bootloader"
  | uefi => "UnknownUefi"
  | bios => "UnknownBios"

/-- The region over several lines, with its addresses in hexadecimal. -/
def BootRegion.text (r : BootRegion) : String :=
  "MemoryRegion \x7b\n    start: " ++ Text.hex r.start.toNat ++ ",\n    end: " ++
    Text.hex r.stop.toNat ++ ",\n    kind: " ++ r.kind.text ++ ",\n\x7d"

/-- A frame as text. -/
def frameText (frame : UInt64) : String := "PhysFrame[4KiB](" ++ Text.hex frame.toNat ++ ")"

/-- A page as text. -/
def pageText (page : UInt64) : String := "Page[4KiB](" ++ Text.hex page.toNat ++ ")"

/-- Why a page is not mapped. -/
inductive MapError where
  /-- There is no frame left for the page or for a table on the way to it. -/
  | frameAllocationFailed
  /-- The page has a frame already; `frame` is the one it was to get. -/
  | pageAlreadyMapped (frame : UInt64)
deriving DecidableEq, Repr

/-- The error on one line. -/
def MapError.text : MapError → String
  | frameAllocationFailed => "FrameAllocationFailed"
  | pageAlreadyMapped frame => "PageAlreadyMapped(" ++ frameText frame ++ ")"

/-- The error with its frame on a line of its own. -/
def MapError.lines : MapError → String
  | frameAllocationFailed => "FrameAllocationFailed"
  | pageAlreadyMapped frame => "PageAlreadyMapped(\n    " ++ frameText frame ++ ",\n)"

end EnvKernel.Memory
