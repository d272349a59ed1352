import EnvKernel.Env.Create
import EnvKernel.Lock.Spin
import EnvKernel.Scheduler.Function

/-!
The kernel's table of environments behind its lock, and the functions that give the processor away.
Each of them looks at the table while it holds the lock, and lets go of it before control passes to an
environment or the kernel halts. Whatever goes wrong with the table here is a reason to give up, and
then the lock stays held.
-/

namespace EnvKernel.Scheduler

open Env
open Memory (AddressSpace)

/-- The kernel's table. -/
abbrev KernelTable := EnvTable defaultSlots

/-- The table behind its lock, once it is set up, and the memory that programs are loaded into. -/
structure System (σ : Type) where
  envs : Option (Spinlock KernelTable) := none
  space : σ

/-- Where control goes when the kernel gives the processor away. -/
inductive Transfer where
  /-- To an environment, which goes on with these registers. -/
  | resume (tf : Trapframe)
  /-- Nowhere: the processor stops. -/
  | halt
deriving DecidableEq, Repr

variable {σ ε α : Type}

/-- Runs a computation on the table and the memory while the lock is held. -/
def withTable (x : Action (World defaultSlots σ) ε α) : Action (System σ) ε α := fun s =>
  match s.envs with
  | none => Action.panic .tableUnavailable s
  | some l =>
    match l.tryLock with
    | (false, _) => Action.halt .deadlock s
    | (true, held) =>
      match x ⟨held.value, s.space⟩ with
      | ⟨.stop h, w, said⟩ => ⟨.stop h, ⟨some { held with value := w.envs }, w.space⟩, said⟩
      | ⟨outcome, w, said⟩ =>
        ⟨outcome, ⟨some (Spinlock.unlock { held with value := w.envs }), w.space⟩, said⟩

/-- Sets the table up, if that has not been done yet. New environments start with the selectors
`kernel`. -/
def init (kernel : Selectors) : Action (System σ) ε Unit := do
  let s ← Action.state
  if s.envs.isNone then
    let table ← Action.orPanic (EnvTable.new defaultSlots (.kernelSpace kernel))
    Action.update fun s => { s with envs := some (.new table) }
  Action.log (.tableReady defaultSlots)

/-- Creates an environment. The images are the kernel's own, so that a bad one is a bug. -/
def create [AddressSpace σ] (binary : Bytes) (kind : Kind) : Action (System σ) ε EnvId :=
  withTable (Action.orGiveUp .create (Env.create binder binary kind))

/-- Gives the processor to an environment. -/
def run (id : EnvId) : Action (System σ) ε Transfer := do
  let tf ← withTable (Action.orGiveUp .run (onEnvs (EnvTable.switchTo id)))
  return .resume tf

/-- Gives the processor to the next environment that can run, and halts if there is none. -/
def yieldNow : Action (System σ) ε Transfer := do
  let next ← withTable (do return (← Action.state).envs.nextRunnable)
  match next with
  | some id => run id
  | none => do
    Action.log .nothingRunnable
    return .halt

/-- Destroys an environment and gives the processor to the next one. -/
def destroy (id : EnvId) : Action (System σ) ε Transfer := do
  withTable (Action.orGiveUp .destroy (onEnvs (EnvTable.free id)))
  yieldNow

/-- The running environment, as far as that can be told without waiting for the lock. -/
def currentId (s : System σ) : EnvId :=
  match s.envs with
  | some l => if l.locked then .none else l.value.currentId
  | none => .none

/-- Keeps the registers of the caller and gives the processor to the next environment. -/
def saveAndYield (tf : Trapframe) : Action (System σ) ε Transfer := do
  withTable (Action.orGiveUp .yield (onEnvs (EnvTable.saveCurrent tf)))
  yieldNow

/-- Destroys the caller. -/
def exit : Action (System σ) ε Transfer := destroy .none

/-- The text of a string that ends at its first zero byte. -/
def stringText (s : Bytes) : String :=
  let length := (s.data.findIdx? (· == 0)).getD s.size
  ((s.extract 0 length).text?).getD "<invalid utf-8>"

/-- Prints a string. There is nothing at a null pointer. -/
def putString {τ : Type} (s : Option Bytes) : Action τ ε Unit :=
  match s with
  | none => return ()
  | some s => Action.say (.print (stringText s))

end EnvKernel.Scheduler
