import EnvKernel.Cpu.Processor

/-!
Saving the registers of an environment that calls for another one to run. The sequence builds a
trapframe on the caller's stack, from the highest word down: it resumes at the return address with the
stack pointer that the caller has after the return. `save` runs the sequence and gives the frame that
the kernel then reads from the stack.
-/

namespace EnvKernel.Cpu

open Env (Trapframe)
open Memory (PageStore)

/-- An instruction of the sequence. Offsets count from the stack pointer. -/
inductive SaveStep where
  | pushZero
  | pushFlags
  | pushWordAt (offset : UInt64)
  | pushRegister (r : Register)
  /-- Puts an address into a register. -/
  | addressOf (r : Register) (offset : UInt64)
  | storeRegister (offset : UInt64) (r : Register)
  /-- Makes a register zero. The flags that this changes are saved by then. -/
  | clear (r : Register)
  /-- Copies a segment register into the 16 low bits of a register. -/
  | readSegment (r : Register) (s : SegmentRegister)
  /-- Lowers the stack pointer to a multiple of 16. -/
  | alignStack
deriving DecidableEq, Repr

/-- The sequence. Selectors, stack pointer and return address go to their places in the frame last; the
address of the frame is left in the register for first arguments. -/
def saveSteps : List SaveStep :=
  [.pushZero, .pushZero, .pushFlags, .pushZero, .pushWordAt 32, .pushZero, .pushZero, .pushZero,
    .pushZero,
    .pushRegister .rax, .pushRegister .rbx, .pushRegister .rcx, .pushRegister .rdx,
    .pushRegister .rbp, .pushRegister .rdi, .pushRegister .rsi, .pushRegister .r8,
    .pushRegister .r9, .pushRegister .r10, .pushRegister .r11, .pushRegister .r12,
    .pushRegister .r13, .pushRegister .r14, .pushRegister .r15,
    .addressOf .rax 200, .storeRegister 176 .rax, .clear .rax,
    .readSegment .rax .cs, .storeRegister 160 .rax,
    .readSegment .rax .ss, .storeRegister 184 .rax,
    .readSegment .rax .ds, .storeRegister 128 .rax,
    .readSegment .rax .es, .storeRegister 120 .rax,
    .addressOf .rdi 0, .alignStack]

variable {σ ε : Type} [PageStore σ]

/-- Carries one instruction out. -/
def SaveStep.run : SaveStep → Action (Hardware σ) ε Unit
  | .pushZero => Hardware.push 0
  | .pushFlags => do
    let h ← Action.state
    Hardware.push h.cpu.rflags
  | .pushWordAt offset => do
    let h ← Action.state
    let value ← Hardware.load (h.cpu.rsp + offset)
    Hardware.push value
  | .pushRegister r => do
    let h ← Action.state
    Hardware.push (r.get h.cpu.regs)
  | .addressOf r offset => Hardware.onCpu fun p => p.setRegister r (p.rsp + offset)
  | .storeRegister offset r => do
    let h ← Action.state
    Hardware.store (h.cpu.rsp + offset) (r.get h.cpu.regs)
  | .clear r => Hardware.onCpu fun p => p.setRegister r 0
  | .readSegment r s => Hardware.onCpu fun p =>
    p.setRegister r ((r.get p.regs &&& ~~~0xffff) ||| (p.segment s).toUInt64)
  | .alignStack => Hardware.onCpu fun p => { p with rsp := p.rsp &&& ~~~15 }

/-- Carries instructions out in order. -/
def runSave : List SaveStep → Action (Hardware σ) ε Unit
  | [] => return ()
  | step :: rest => do
    step.run
    runSave rest

/-- The words of memory from `addr` on, `count` of them. -/
def loadWords (addr : UInt64) : Nat → Action (Hardware σ) ε (List UInt64)
  | 0 => return []
  | count + 1 => do
    let word ← Hardware.load addr
    let rest ← loadWords (addr + 8) count
    return word :: rest

/-- The trapframe in memory at `addr`. -/
def loadFrame (addr : UInt64) : Action (Hardware σ) ε Trapframe := do
  let words ← loadWords addr 24
  return Trapframe.ofWords (Vector.ofFn fun i => words.getD i.val 0)

/-- Saves the registers of the caller, calls the kernel and reads the frame there. The call pushes an
address of the kernel, to which it never returns. -/
def save (returnAddr : UInt64) : Action (Hardware σ) ε Trapframe := do
  runSave saveSteps
  Hardware.push returnAddr
  let h ← Action.state
  loadFrame h.cpu.regs.rdi

end EnvKernel.Cpu
