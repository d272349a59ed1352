import EnvKernel.Console.Serial

/-!
Orders to the processor and its devices that set the machine up rather than compute.
-/

namespace EnvKernel.Cpu

/-- The segment registers that the kernel loads. -/
inductive SegmentRegister where
  | cs
  | ds
  | es
  | ss
deriving DecidableEq, Repr

/-- An order to the processor or to a device. -/
inductive Control where
  /-- The table of segment descriptors, with its length less one. -/
  | loadDescriptors (limit : UInt16) (entries : List UInt64)
  | setSegment (register : SegmentRegister) (selector : UInt16)
  | loadTask (selector : UInt16)
  | disableInterrupts
  /-- The table of handlers, with its length less one: the vectors that have a gate, and each gate's
  options. -/
  | loadHandlers (limit : UInt16) (gates : List (Nat × UInt16))
  | out (write : Console.RegisterWrite)
deriving DecidableEq, Repr

end EnvKernel.Cpu
