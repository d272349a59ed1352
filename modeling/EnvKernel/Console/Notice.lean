import EnvKernel.Console.Log
import EnvKernel.Env.Error
import EnvKernel.Interrupt.Exception
import EnvKernel.Memory.BootMap
import EnvKernel.Text.Quoted

/-!
What the kernel has to say while it works. A notice is the fact; `Notice.level` and `Notice.text` say
how the log tells it.
-/

namespace EnvKernel.Console

open Env (EnvId)
open Memory (BootRegion MapError)
open Interrupt (Frame)

/-- Something for the log. -/
inductive Notice where
  | tableReady (slots : Nat)
  | nothingRunnable
  /-- An environment exists: where it starts, and how the binding of its pointers went. -/
  | created (id : EnvId) (entry : UInt64) (bound unresolved : Nat) (names : List String)
  /-- A pointer has no kernel function and gets zero. -/
  | unbound (name : String)
  | bound (name : String) (pointer addr : UInt64)
  /-- A usable region of the boot map finds no room in the frame allocator. -/
  | regionIgnored (region : BootRegion)
  | alreadyMapped (page : UInt64)
  | mapFailed (page : UInt64) (reason : MapError)
  | breakpoint (saved : Frame)
  | pageFault
  | accessed (addr : UInt64)
  | faultCode (code : UInt64)
  | neverBound
  | running (id : EnvId)
  /-- An instruction lies `offset` bytes into a kernel function. -/
  | inside (rip : UInt64) (function : String) (offset : UInt64) (file : String) (line : Nat)
  | outside (rip : UInt64)
  | frame (saved : Frame)
deriving DecidableEq, Repr

/-- How important a notice is. -/
def Notice.level : Notice → Level
  | tableReady .. => .info
  | nothingRunnable => .info
  | created .. => .debug
  | unbound .. => .debug
  | bound .. => .debug
  | regionIgnored .. => .warn
  | alreadyMapped .. => .warn
  | mapFailed .. => .error
  | breakpoint .. => .warn
  | pageFault => .error
  | accessed .. => .error
  | faultCode .. => .error
  | neverBound => .error
  | running .. => .error
  | inside .. => .error
  | outside .. => .error
  | frame .. => .trace

/-- The text of a notice. -/
def Notice.text : Notice → String
  | tableReady slots => "environment table ready, " ++ toString slots ++ " slots"
  | nothingRunnable => "no runnable environments left"
  | created id entry found lost names =>
    "env " ++ id.text ++ ": entry " ++ Text.hex entry.toNat ++ ", " ++ toString found ++
      " symbols bound, " ++ toString lost ++ " unresolved " ++ Text.quoteList names
  | unbound name => "no kernel symbol for " ++ name ++ ", binding it to zero"
  | bound name pointer addr =>
    "binding " ++ name ++ "@" ++ Text.hex pointer.toNat ++ " -> " ++ Text.hex addr.toNat
  | regionIgnored region => "too many usable memory regions, ignoring " ++ region.text
  | alreadyMapped page => Text.hex page.toNat ++ " is already mapped, loading over it"
  | mapFailed page reason => "failed to map " ++ Memory.pageText page ++ ": " ++ reason.text
  | breakpoint saved => "EXCEPTION: BREAKPOINT\n" ++ saved.text
  | pageFault => "EXCEPTION: PAGE FAULT"
  | accessed addr => "Accessed Address: " ++ Interrupt.addressText addr
  | faultCode code => "Error Code: " ++ Interrupt.faultCodeText code
  | neverBound => "called through a kernel function pointer that was never bound"
  | running id => "current env: " ++ id.text
  | inside rip function offset file line =>
    "rip " ++ Text.hex rip.toNat ++ " is in " ++ function ++ "+" ++ Text.hex offset.toNat ++ " (" ++
      file ++ ":" ++ toString line ++ ")"
  | outside rip => "rip " ++ Text.hex rip.toNat ++ " is outside of known kernel functions"
  | frame saved => saved.text

/-- The log record of a notice. -/
def Notice.record (n : Notice) : Record := { level := n.level, text := n.text }

end EnvKernel.Console
