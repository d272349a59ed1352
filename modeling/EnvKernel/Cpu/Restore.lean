import EnvKernel.Cpu.Processor

/-!
Restoring the registers of an environment. Its instruction pointer and flags are stored below its stack
pointer first, so that the last two instructions can take them from there and leave the stack pointer
as it was saved. All other registers are read from a copy of the frame that the kernel keeps.
-/

namespace EnvKernel.Cpu

open Env (Trapframe)
open Memory (PageStore)

/-- An instruction that reads the frame. Offsets count bytes from the start of the frame. -/
inductive RestoreStep where
  | loadRegister (r : Register) (offset : Nat)
  | loadSegment (s : SegmentRegister) (offset : Nat)
  | loadStack (offset : Nat)
deriving DecidableEq, Repr

/-- The instructions between the two stores and the two final ones. -/
def restoreSteps : List RestoreStep :=
  [.loadRegister .r15 0, .loadRegister .r14 8, .loadRegister .r13 16, .loadRegister .r12 24,
    .loadRegister .r11 32, .loadRegister .r10 40, .loadRegister .r9 48, .loadRegister .r8 56,
    .loadRegister .rsi 64, .loadRegister .rdi 72, .loadRegister .rbp 80, .loadRegister .rdx 88,
    .loadRegister .rcx 96, .loadRegister .rbx 104, .loadRegister .rax 112, .loadSegment .es 120,
    .loadSegment .ds 128, .loadStack 176]

/-- The word of a frame at an offset in bytes. -/
def frameWord (tf : Trapframe) (offset : Nat) : UInt64 := tf.words.toArray.getD (offset / 8) 0

/-- Carries one instruction out. -/
def RestoreStep.run (tf : Trapframe) (p : Processor) : RestoreStep → Processor
  | .loadRegister r offset => p.setRegister r (frameWord tf offset)
  | .loadSegment s offset => p.setSegment (frameWord tf offset).toUInt16 s
  | .loadStack offset => { p with rsp := frameWord tf offset }

variable {σ ε : Type} [PageStore σ]

/-- Stores a word below the saved stack pointer, which is lowered to it. -/
def pushSaved (tf : Trapframe) (value : UInt64) : Action (Hardware σ) ε Trapframe :=
  match Word.sub? tf.rsp 8 with
  | none => Action.panic (.overflow .subtract)
  | some rsp => do
    Hardware.store rsp value
    return { tf with rsp }

/-- Goes on where the frame was saved. -/
def restore (tf : Trapframe) : Action (Hardware σ) ε Unit := do
  let tf ← pushSaved tf tf.rip
  let tf ← pushSaved tf tf.rflags
  Hardware.onCpu fun p => restoreSteps.foldl (RestoreStep.run tf) p
  let rflags ← Hardware.pop
  Hardware.onCpu fun p => { p with rflags }
  let rip ← Hardware.pop
  Hardware.onCpu fun p => { p with rip }

end EnvKernel.Cpu
