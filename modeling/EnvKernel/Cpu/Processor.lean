import EnvKernel.Action
import EnvKernel.Env.Trapframe
import EnvKernel.Memory.Store

/-!
The processor as far as switching between environments concerns it: its registers, and its accesses
to words of memory. An access that needs a page which is not there is a fault at the first address
that is missing.
-/

namespace EnvKernel.Cpu

open Env (Registers)
open Memory (PageStore)

/-- The names of the general purpose registers but the stack pointer. -/
inductive Register where
  | r15 | r14 | r13 | r12 | r11 | r10 | r9 | r8
  | rsi | rdi | rbp | rdx | rcx | rbx | rax
deriving DecidableEq, Repr

namespace Register

/-- The contents of a register. -/
def get (regs : Registers) : Register → UInt64
  | r15 => regs.r15
  | r14 => regs.r14
  | r13 => regs.r13
  | r12 => regs.r12
  | r11 => regs.r11
  | r10 => regs.r10
  | r9 => regs.r9
  | r8 => regs.r8
  | rsi => regs.rsi
  | rdi => regs.rdi
  | rbp => regs.rbp
  | rdx => regs.rdx
  | rcx => regs.rcx
  | rbx => regs.rbx
  | rax => regs.rax

/-- The registers with one of them replaced. -/
def set (regs : Registers) (value : UInt64) : Register → Registers
  | r15 => { regs with r15 := value }
  | r14 => { regs with r14 := value }
  | r13 => { regs with r13 := value }
  | r12 => { regs with r12 := value }
  | r11 => { regs with r11 := value }
  | r10 => { regs with r10 := value }
  | r9 => { regs with r9 := value }
  | r8 => { regs with r8 := value }
  | rsi => { regs with rsi := value }
  | rdi => { regs with rdi := value }
  | rbp => { regs with rbp := value }
  | rdx => { regs with rdx := value }
  | rcx => { regs with rcx := value }
  | rbx => { regs with rbx := value }
  | rax => { regs with rax := value }

end Register

/-- The registers of the processor. -/
structure Processor where
  regs : Registers := {}
  rsp : UInt64 := 0
  rip : UInt64 := 0
  rflags : UInt64 := 0
  cs : UInt16 := 0
  ds : UInt16 := 0
  es : UInt16 := 0
  ss : UInt16 := 0
deriving DecidableEq, Repr

namespace Processor

/-- The contents of a segment register. -/
def segment (p : Processor) : SegmentRegister → UInt16
  | .cs => p.cs
  | .ds => p.ds
  | .es => p.es
  | .ss => p.ss

/-- The processor with one segment register replaced. -/
def setSegment (p : Processor) (selector : UInt16) : SegmentRegister → Processor
  | .cs => { p with cs := selector }
  | .ds => { p with ds := selector }
  | .es => { p with es := selector }
  | .ss => { p with ss := selector }

/-- The processor with one general purpose register replaced. -/
def setRegister (p : Processor) (r : Register) (value : UInt64) : Processor :=
  { p with regs := r.set p.regs value }

end Processor

/-- A processor and its memory. -/
structure Hardware (σ : Type) where
  cpu : Processor
  memory : σ

namespace Hardware

variable {σ ε : Type} [PageStore σ]

/-- Changes the processor. -/
def onCpu (f : Processor → Processor) : Action (Hardware σ) ε Unit :=
  Action.update fun h => { h with cpu := f h.cpu }

/-- The first address that an access to the word at `addr` needs and that is not there. -/
def missingAddr? (s : σ) (addr : UInt64) : Option UInt64 :=
  (Memory.missing? s (Memory.touched addr 8)).map fun base => max base addr

/-- The word at an address. -/
def load (addr : UInt64) : Action (Hardware σ) ε UInt64 := fun h =>
  match missingAddr? h.memory addr, Memory.copyOut h.memory addr 8 with
  | some place, _ => Action.halt (.fault place) h
  | none, .ok bytes => { outcome := .ok (Word.ofBytes bytes), state := h }
  | none, .error _ => Action.halt (.fault addr) h

/-- Stores a word at an address. -/
def store (addr value : UInt64) : Action (Hardware σ) ε Unit := fun h =>
  match missingAddr? h.memory addr with
  | some place => Action.halt (.fault place) h
  | none =>
    { outcome := .ok (), state := { h with memory := Memory.copyIn h.memory addr (Word.toBytes value) } }

/-- Stores a word below the stack pointer and lowers the stack pointer to it. -/
def push (value : UInt64) : Action (Hardware σ) ε Unit := do
  let h ← Action.state
  let top := h.cpu.rsp - 8
  store top value
  onCpu fun p => { p with rsp := top }

/-- Takes the word at the stack pointer and raises the stack pointer behind it. -/
def pop : Action (Hardware σ) ε UInt64 := do
  let h ← Action.state
  let value ← load h.cpu.rsp
  onCpu fun p => { p with rsp := p.rsp + 8 }
  return value

end Hardware

end EnvKernel.Cpu
