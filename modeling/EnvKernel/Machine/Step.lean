import EnvKernel.Machine.Basic

/-!
What happens on a machine that is up: memory is mapped and stored to, environments are created, call
the kernel and get the processor, and the processor raises exceptions.
-/

namespace EnvKernel.Machine

open Env Memory Scheduler
open Cpu (Processor Hardware)

variable {ε α : Type}

/-- The address as the processor takes it. The kernel gives up on any other. -/
def virtual (addr : UInt64) : Action Machine ε UInt64 :=
  match virtual? addr with
  | some addr => pure addr
  | none => Action.panic (.virtualAddress addr)

/-- The physical address that a virtual one stands for. -/
def toPhysical (addr : UInt64) : Action Machine ε (Option UInt64) := do
  let addr ← virtual addr
  let memory ← onMemory Action.state
  return memory.manager.tables.toPhysical? addr

/-- Gives the page of an address a fresh frame. -/
def mapPage (addr : UInt64) : Action Machine MapError UInt64 := do
  let addr ← virtual addr
  onMemory (KernelMemory.onManager (MemoryManager.map (pageBase addr)))

/-- Begins a new space, through which no page has been mapped. -/
def newSpace : Action Machine ε Unit := do
  let _ ← onMemory Action.state
  Action.update fun m => { m with own := some [] }

/-- A computation on the space in use, or on a new one if there is none. -/
def onSpace (x : Action KernelSpace ε α) : Action Machine ε α := fun m =>
  match m.memory with
  | none => Action.panic .memoryUnavailable m
  | some memory =>
    Action.onPart (fun m => { memory, own := m.own.getD [] })
      (fun space m => { m with memory := some space.memory, own := some space.own }) x m

/-- Creates an environment through a space of its own. -/
def create (binary : Bytes) (kind : Kind) : Action Machine ε EnvId := fun m =>
  match m.memory with
  | none => Action.panic .memoryUnavailable m
  | some memory =>
    Action.onPart (fun m => { envs := m.envs, space := { memory } })
      (fun (s : System KernelSpace) m => { m with envs := s.envs, memory := some s.space.memory })
      (Scheduler.create binary kind) m

/-- Where control is after the kernel gave the processor away. -/
inductive Arrival where
  /-- In an environment, with these registers. -/
  | environment (cpu : Processor)
  | halted
deriving DecidableEq, Repr

/-- Carries a transfer of control out. -/
def enter : Transfer → Action Machine ε Arrival
  | .halt => return .halted
  | .resume tf => do
    onHardware (Cpu.restore tf)
    return .environment (← Action.state).cpu

/-- Gives the processor to an environment. -/
def run (id : EnvId) : Action Machine ε Arrival := do
  enter (← onTable (Scheduler.run id))

/-- Destroys an environment and gives the processor to the next one. -/
def destroy (id : EnvId) : Action Machine ε Arrival := do
  enter (← onTable (Scheduler.destroy id))

/-- Gives the processor to the next environment. -/
def yieldNow : Action Machine ε Arrival := do
  enter (← onTable Scheduler.yieldNow)

/-- The running environment ends itself. -/
def exit : Action Machine ε Arrival := do
  enter (← onTable Scheduler.exit)

/-- The running environment. -/
def currentId (m : Machine) : EnvId :=
  Scheduler.currentId ({ envs := m.envs, space := () } : System Unit)

/-- Where the kernel's call for the next environment would return to. -/
def afterSwitch : UInt64 := Function.yield.addr + 0x80

/-- The running environment, with these registers, calls for another one to run. It is to go on at
`caller.rip` with the stack pointer `caller.rsp`, so its call pushes that address just below. -/
def yield (caller : Trapframe) : Action Machine ε Arrival := do
  let tf ← onHardware do
    Hardware.onCpu fun p =>
      { p with regs := caller.regs, rsp := caller.rsp, rflags := caller.rflags }
    Hardware.push caller.rip
    Cpu.save afterSwitch
  enter (← onTable (Scheduler.saveAndYield tf))

/-- The processor raises an exception, with `addr` or else zero in the register for the address of a page
fault. It gives the frame that the interrupted code goes on with, and nothing if there is no handler to
call. -/
def raise (vector : Nat) (frame : Interrupt.Frame) (code addr : Option UInt64) :
    Action Machine ε (Option Interrupt.Frame) := do
  let m ← Action.state
  match if m.handlersLoaded then Interrupt.Exception.ofVector? vector else none with
  | none => return none
  | some e =>
    let scene : Interrupt.Scene :=
      { running := m.currentId, symbols := kernelSymbols, faultAddress := addr.getD 0 }
    Interrupt.handle scene e frame (code.getD 0)
    return some frame

/-- The bytes from `addr` on that are seen through the page tables, if all of their pages are there. -/
def read (addr : UInt64) (len : Nat) : Action Machine ε (Option (Array UInt8)) := do
  return (← onMemory Action.state).look? addr len

/-- The word at `addr` that is seen through the page tables. -/
def readWord (addr : UInt64) : Action Machine ε (Option UInt64) := do
  return (← read addr 8).map Word.ofBytes

end EnvKernel.Machine
