import EnvKernel.Action
import EnvKernel.Memory.Paging
import EnvKernel.Symbol

/-!
Handlers of exceptions. A breakpoint is noted and the interrupted code goes on; every other exception
is reported and the kernel gives up.
-/

namespace EnvKernel.Interrupt

open Env (EnvId)

/-- What a handler can look at besides the frame and the error code. -/
structure Scene where
  /-- The running environment. -/
  running : EnvId
  symbols : SymbolTable
  /-- The address that a page fault was raised for, as its register holds it. -/
  faultAddress : UInt64

variable {σ ε : Type}

/-- Tells which environment runs and which kernel function contains `rip`, if one does. -/
def reportLocation (scene : Scene) (rip : UInt64) : Action σ ε Unit := do
  Action.log (.running scene.running)
  match scene.symbols.resolveAddress rip with
  | none => Action.log (.outside rip)
  | some s =>
    match Word.sub? rip s.addr with
    | none => Action.panic (.overflow .subtract)
    | some offset => Action.log (.inside rip s.name offset s.file s.line)

/-- Reports a page fault and gives up. An instruction or an access at address zero means that a
pointer to a kernel function was never bound. -/
def pageFault (scene : Scene) (frame : Frame) (code : UInt64) : Action σ ε Unit := do
  match Memory.virtual? scene.faultAddress with
  | none => Action.panic (.virtualAddress scene.faultAddress)
  | some accessed =>
    Action.log .pageFault
    Action.log (.accessed accessed)
    Action.log (.faultCode code)
    if frame.rip = 0 ∨ accessed = 0 then Action.log .neverBound
    reportLocation scene frame.rip
    Action.log (.frame frame)
    Action.panic .pageFault

/-- Handles an exception. The processor pushes an error code for some exceptions only. -/
def handle (scene : Scene) (e : Exception) (frame : Frame) (code : UInt64) : Action σ ε Unit :=
  match e with
  | .breakpoint => Action.log (.breakpoint frame)
  | .pageFault => pageFault scene frame code
  | .divideError => Action.panic (.exception e none frame)
  | .invalidOpcode => do
    reportLocation scene frame.rip
    Action.panic (.exception e none frame)
  | .generalProtectionFault => do
    reportLocation scene frame.rip
    Action.panic (.exception e (some code) frame)
  | .doubleFault | .segmentNotPresent | .stackSegmentFault =>
    Action.panic (.exception e (some code) frame)

end EnvKernel.Interrupt
