import EnvKernel.Memory.BootMap
import EnvKernel.Memory.Page
import EnvKernel.Panic

/-!
Frames of physical memory. The usable regions of the boot map are walked in order, each in steps of
one page from its start; the address that a step arrives at names the frame that contains it. Frames
are never given back, so a count of calls says which one is next.
-/

namespace EnvKernel.Memory

/-- How many usable regions are kept. -/
def maxUsableRegions : Nat := 64

/-- The usable regions of a boot map, in its order. -/
def usableRegions (map : List BootRegion) : List BootRegion := map.filter (·.kind == .usable)

/-- The usable regions that are not kept. -/
def ignoredRegions (map : List BootRegion) : List BootRegion :=
  (usableRegions map).drop maxUsableRegions

/-- The frames that there are, and how many calls have asked for one. -/
structure FrameAllocator where
  usable : List Range := []
  next : Nat := 0
deriving DecidableEq, Repr

/-- The number of addresses that steps of one page from the start of a range on arrive at. -/
def Range.steps (r : Range) : Nat := (r.stop.toNat - r.start.toNat + 4095) / 4096

/-- The address that `i` steps from the start of a range on arrive at. -/
def Range.stepTo (r : Range) (i : Nat) : UInt64 := r.start + UInt64.ofNat (4096 * i)

/-- The frame that contains a physical address. -/
def frameAt (addr : UInt64) : Except Panic UInt64 :=
  if addr.toNat < 0x10000000000000 then .ok (pageBase addr) else .error .physicalAddress

/-- The frame number `i` of the ranges. All addresses up to that one are looked at on the way; those of
one range ascend, so the last of them stands for all. -/
def frame? : List Range → Nat → Except Panic (Option UInt64)
  | [], _ => .ok none
  | r :: rs, i =>
    if i < r.steps then (frameAt (r.stepTo i)).map some
    else if r.steps = 0 then frame? rs i
    else
      match frameAt (r.stepTo (r.steps - 1)) with
      | .error p => .error p
      | .ok _ => frame? rs (i - r.steps)

namespace FrameAllocator

/-- The allocator for a boot map. -/
def ofBootMap (map : List BootRegion) : FrameAllocator :=
  { usable := ((usableRegions map).take maxUsableRegions).map fun r => ⟨r.start, r.stop⟩ }

/-- The next frame, if there is one. Calls that find none are counted as well. -/
def allocate (a : FrameAllocator) : Except Panic (Option UInt64 × FrameAllocator) :=
  (frame? a.usable a.next).map fun frame => (frame, { a with next := a.next + 1 })

end FrameAllocator

end EnvKernel.Memory
