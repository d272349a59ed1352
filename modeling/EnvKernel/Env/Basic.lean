import EnvKernel.Bytes
import EnvKernel.Env.Error
import EnvKernel.Env.Trapframe

/-!
Environments and what all environments of a table have in common: where their stacks are and which
selectors they start with.
-/

namespace EnvKernel.Env

/-- With which rights an environment runs. -/
inductive Kind where
  | kernel
  | user
deriving DecidableEq, Repr

/-- Where the stacks of environments are. -/
inductive Stacks where
  /-- All environments share the memory of the kernel and run with its rights. The stack of a slot ends
  `slot * size` bytes below `top`. -/
  | shared (top size : UInt64)
  /-- Each environment has its memory to itself, and all stacks end at `top`. -/
  | separate (top size : UInt64)
deriving DecidableEq, Repr

/-- Where stacks begin at the upper end. -/
def Stacks.top : Stacks → UInt64
  | shared top _ => top
  | separate top _ => top

/-- Bytes of one stack. -/
def Stacks.size : Stacks → UInt64
  | shared _ size => size
  | separate _ size => size

/-- The default number of slots, as a power of two. -/
def defaultSlotBits : Nat := 10

/-- The default number of slots. -/
def defaultSlots : Nat := 1024

/-- Top of the memory for stacks that share the kernel's memory. -/
def stackAreaTop : UInt64 := 0x2000000

/-- Bytes of a stack: two pages. -/
def stackSize : UInt64 := 2 * Memory.pageSize

/-- Top of the stack of an environment that has its memory to itself. -/
def userStackTop : UInt64 := 0xeebfe000

/-- What all environments of a table have in common. -/
structure Config where
  layout : Stacks
  kernel : Selectors
  user : Selectors
deriving DecidableEq, Repr

/-- Environments that share the kernel's memory and rights. -/
def Config.kernelSpace (kernel : Selectors) : Config :=
  { layout := .shared stackAreaTop stackSize, kernel, user := kernel }

/-- Environments that have their memory to themselves. -/
def Config.userSpace (kernel user : Selectors) : Config :=
  { layout := .separate userStackTop stackSize, kernel, user }

/-- An environment, or a slot without one. -/
structure Environment where
  id : EnvId := .none
  parent : EnvId := .none
  status : Status := .free
  kind : Kind := .user
  /-- How often the environment was given the processor, modulo 2 ^ 32. -/
  runs : UInt32 := 0
  tf : Trapframe := {}
  /-- The image that the environment was loaded from. -/
  binary : Option Bytes := none
deriving DecidableEq

end EnvKernel.Env
