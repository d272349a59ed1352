import EnvKernel.Env.Error
import EnvKernel.Interrupt.Exception
import EnvKernel.Memory.BootMap

/-!
The reasons for which the kernel gives up, and the text that each one leaves behind.
-/

namespace EnvKernel

open Env (EnvError)
open Memory (MapError)
open Interrupt (Exception)

/-- An operation on words whose result was no word. -/
inductive Overflow where
  | add
  | subtract
  | multiply
deriving DecidableEq, Repr

/-- The name of the operation. -/
def Overflow.text : Overflow → String
  | add => "add"
  | subtract => "subtract"
  | multiply => "multiply"

/-- Why the kernel gives up. -/
inductive Panic where
  | overflow (operation : Overflow)
  /-- A table of environments has a power of two of slots, at most 4096. -/
  | tableCapacity (capacity : Nat)
  /-- The memory below `top` has no room for so many stacks. -/
  | stackArea (top : UInt64) (capacity : Nat) (size : UInt64)
  | destroyingRunning
  /-- A physical address has 52 bits. -/
  | physicalAddress
  /-- A virtual address has 48 bits, extended by their sign. -/
  | virtualAddress (addr : UInt64)
  | tableUnavailable
  | memoryUnavailable
  | heap (reason : MapError)
  | create (reason : EnvError)
  | run (reason : EnvError)
  | destroy (reason : EnvError)
  | yield (reason : EnvError)
  | loggerInstalled
  | pageFault
  | exception (kind : Exception) (code : Option UInt64) (frame : Interrupt.Frame)
deriving DecidableEq, Repr

/-- The text of the panic. -/
def Panic.message : Panic → String
  | overflow operation => "attempt to " ++ operation.text ++ " with overflow"
  | tableCapacity capacity => "invalid environment table capacity: " ++ toString capacity
  | stackArea top capacity size =>
    "stack area below " ++ Text.hex top.toNat ++ " can't hold " ++ toString capacity ++
      " stacks of " ++ Text.hex size.toNat ++ " bytes"
  | destroyingRunning => "not implemented: destroying a running environment"
  | physicalAddress => "physical addresses must not have any bits in the range 52 to 64 set"
  | virtualAddress addr =>
    "address passed to VirtAddr::new must not contain any data in bits 48 to 64: VirtAddrNotValid(" ++
      Text.hex addr.toNat ++ ")"
  | tableUnavailable => "environment table is unavailable: Uninit"
  | memoryUnavailable => "kernel memory manager is unavailable: Uninit"
  | heap reason => "heap init failed: " ++ reason.lines
  | create reason => "env_create: " ++ reason.message
  | run reason => "env_run: " ++ reason.message
  | destroy reason => "env_destroy: " ++ reason.message
  | yield reason => "sys_yield: " ++ reason.message
  | loggerInstalled =>
    "failed to setup logger: attempted to set a logger after the logging system was already initialized"
  | pageFault => "Unhandled page fault"
  | exception kind none frame => "EXCEPTION: " ++ kind.title ++ "\n\n" ++ frame.text
  | exception kind (some code) frame =>
    "EXCEPTION: " ++ kind.title ++ "\nerror code: " ++ toString code.toNat ++ ", " ++ frame.text

/-- How the kernel can stop short of an answer. -/
inductive Stop where
  | panic (reason : Panic)
  /-- The processor was given an address that is not mapped. -/
  | fault (addr : UInt64)
  /-- A lock was asked for that is held and that nobody will give back. -/
  | deadlock
deriving DecidableEq, Repr

end EnvKernel
