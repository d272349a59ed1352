import EnvKernel.Cpu.Restore
import EnvKernel.Cpu.Save
import EnvKernel.Cpu.Segment
import EnvKernel.Interrupt.Gate
import EnvKernel.Interrupt.Handler
import EnvKernel.Memory.Heap
import EnvKernel.Scheduler.Run

/-!
The machine that the kernel runs on: its memory, its processor, and the kernel's state. This module
holds the machine and the steps that bring it up.
-/

namespace EnvKernel

open Memory Scheduler

/-- A store that is not there has no pages. -/
instance {σ : Type} [PageStore σ] : PageStore (Option σ) where
  page? s base := s.bind fun s => PageStore.page? s base
  setPage s base page := s.map fun s => PageStore.setPage s base page

/-- The machine and the kernel on it. -/
structure Machine where
  /-- The memory map that the machine booted with. -/
  bootMap : List BootRegion := []
  /-- The kernel's memory, once it is set up. Before that no page is mapped. -/
  memory : Option KernelMemory := none
  heap : Heap := {}
  cpu : Cpu.Processor := {}
  handlersLoaded : Bool := false
  envs : Option (Spinlock KernelTable) := none
  /-- The pages that were mapped through the space in use, if there is one. -/
  own : Option (List UInt64) := none

namespace Machine

variable {ε α : Type}

/-- A computation on the kernel's memory, which has to be set up. -/
def onMemory (x : Action KernelMemory ε α) : Action Machine ε α := fun m =>
  match m.memory with
  | none => Action.panic .memoryUnavailable m
  | some memory => Action.onPart (fun _ => memory) (fun memory m => { m with memory := some memory }) x m

/-- A computation on the table of environments. -/
def onTable (x : Action (System Unit) ε α) : Action Machine ε α :=
  x.onPart (fun m => { envs := m.envs, space := () }) fun s m => { m with envs := s.envs }

/-- A computation on the processor and the memory that it sees. -/
def onHardware (x : Action (Cpu.Hardware (Option KernelMemory)) ε α) : Action Machine ε α :=
  x.onPart (fun m => { cpu := m.cpu, memory := m.memory }) fun h m =>
    { m with cpu := h.cpu, memory := h.memory }

/-- Gives orders in turn. -/
def giveOrders : List Cpu.Control → Action Machine ε Unit
  | [] => return ()
  | order :: rest => do
    Action.say (.control order)
    giveOrders rest

/-- Warns about regions in turn. -/
def warnAbout : List BootRegion → Action Machine ε Unit
  | [] => return ()
  | region :: rest => do
    Action.log (.regionIgnored region)
    warnAbout rest

/-- Sets the heap up with the frames of the boot map, all of which count as unused. -/
def setUpMemory : Action Machine ε Unit := do
  let m ← Action.state
  warnAbout (ignoredRegions m.bootMap)
  let memory := m.memory.getD {}
  let fresh := { memory with
    manager := { memory.manager with frames := .ofBootMap m.bootMap } }
  let heap ← Action.orGiveUp .heap
    (setUpHeap.onPart (fun _ => fresh) fun memory m => { m with memory := some memory })
  Action.update fun m => { m with heap }

/-- How many frames have been asked for. -/
def usedFrames : Action Machine ε Nat :=
  onMemory (do return (← Action.state).manager.frames.next)

/-- Loads the segments. -/
def loadSegments : Action Machine ε Unit := do
  giveOrders Cpu.loadSegments
  let kernel := Cpu.selectors false
  Action.update fun m =>
    { m with
      cpu := { m.cpu with cs := kernel.code, ds := kernel.data, es := kernel.data, ss := kernel.data } }

/-- Loads the handlers of exceptions. -/
def loadHandlers : Action Machine ε Unit := do
  giveOrders Interrupt.loadHandlers
  Action.update fun m => { m with handlersLoaded := true }

/-- Sets the serial device up and installs the log. There is a log already, so this is where the kernel
gives up. -/
def installLog : Action Machine ε Unit := do
  giveOrders (Console.serialSetUp.map .out)
  Action.panic .loggerInstalled

/-- Sets the table of environments up. -/
def setUpTable : Action Machine ε Unit := onTable (Scheduler.init (Cpu.selectors false))

end Machine

end EnvKernel
