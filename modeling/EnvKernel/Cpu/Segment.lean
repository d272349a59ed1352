import EnvKernel.Cpu.Control
import EnvKernel.Env.Trapframe

/-!
Segments. The processor takes them from a table of descriptors, which says for each one whether it
holds code or data and with which rights it may be used; a selector names an entry of the table by its
offset, and in its two low bits the rights that it asks for.
-/

namespace EnvKernel.Cpu

/-- What a segment holds. -/
inductive Contents where
  | code
  | data
deriving DecidableEq, Repr

/-- The flat segment of all memory, for the kernel (ring 0) or for users (ring 3). -/
structure Segment where
  contents : Contents
  user : Bool
deriving DecidableEq, Repr

namespace Segment

/-- The rights that a selector of the segment asks for. -/
def ring (s : Segment) : Nat := if s.user then 3 else 0

/-- The entry of the table for the segment: base zero and the largest limit, in units of pages. Code
runs in 64-bit mode and can be read, data can be written, and both are marked as used already. -/
def descriptor (s : Segment) : UInt64 :=
  let kind : UInt64 := match s.contents with
    | .code => 0xaf9b000000ffff
    | .data => 0xcf93000000ffff
  kind ||| (UInt64.ofNat s.ring <<< 45)

end Segment

/-- The segments in the order of the table, which begins with an empty entry. -/
def segments : List Segment :=
  [⟨.code, false⟩, ⟨.data, false⟩, ⟨.data, true⟩, ⟨.code, true⟩]

/-- The selector of entry number `index` for the given ring. -/
def selector (index ring : Nat) : UInt16 := UInt16.ofNat (index * 8 + ring)

/-- The selector of a segment. -/
def selectorOf (s : Segment) : UInt16 := selector (segments.idxOf s + 1) s.ring

/-- The selectors of code and data with or without the rights of users. -/
def selectors (user : Bool) : Env.Selectors :=
  { code := selectorOf ⟨.code, user⟩, data := selectorOf ⟨.data, user⟩ }

/-- The selector of the task state, whose entry comes after the segments. -/
def taskSelector : UInt16 := selector (segments.length + 1) 0

/-- The entry of a task state of 104 bytes, without the bits of its address, which fill the fields that
are zero here and the entry after this one. -/
def taskDescriptor : UInt64 := 0x0000890000000067

/-- The table of descriptors. The address of the task state is left out. -/
def descriptors : List UInt64 := 0 :: segments.map Segment.descriptor ++ [taskDescriptor, 0]

/-- Loads the table and makes the kernel's segments and the task state the current ones. -/
def loadSegments : List Control :=
  let kernel := selectors false
  [.loadDescriptors (UInt16.ofNat (descriptors.length * 8 - 1)) descriptors,
    .setSegment .cs kernel.code, .setSegment .ds kernel.data, .setSegment .es kernel.data,
    .setSegment .ss kernel.data, .loadTask taskSelector]

example : selectors false = ⟨8, 16⟩ ∧ selectors true = ⟨35, 27⟩ ∧ taskSelector = 0x28 := by decide

end EnvKernel.Cpu
