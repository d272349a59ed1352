import EnvKernel.Env.Table
import EnvKernel.Program.Bind
import EnvKernel.Program.Load

/-!
Creating an environment: a slot is taken, the stack is mapped, the image is loaded and its pointers
are bound. Whatever fails after the slot was taken, the slot is given back and the error is told.
-/

namespace EnvKernel.Env

open Memory (AddressSpace)

/-- A table of environments and the memory they are loaded into. -/
structure World (n : Nat) (σ : Type) where
  envs : EnvTable n
  space : σ

variable {n : Nat} {σ ε α : Type}

/-- A computation on the table. -/
def onEnvs (x : Action (EnvTable n) ε α) : Action (World n σ) ε α :=
  x.onPart World.envs fun envs w => { w with envs }

/-- A computation on the memory. -/
def onSpace (x : Action σ ε α) : Action (World n σ) ε α :=
  x.onPart World.space fun space w => { w with space }

variable [AddressSpace σ]

/-- Maps the stack of environment `id`, loads `binary` for it and binds its pointers. -/
def prepare (binder : Binder) (binary : Bytes) (id : EnvId) : Action (World n σ) EnvError Unit := do
  let stack ← onEnvs (EnvTable.stackRegion id)
  Action.mapError (.load ∘ .memory) (onSpace (AddressSpace.map stack))
  let w ← Action.state
  match ← Action.ofExcept (w.envs.get id false) with
  | none => Action.fail (.badHandle id)
  | some env =>
    let loaded ← Action.mapError .load (onSpace (Program.load env binary))
    let _ ← onEnvs (EnvTable.getModify id false fun _ => loaded)
    let report ← Action.mapError .bind (onSpace (Program.bind binder binary))
    Action.log (.created id loaded.tf.rip report.bound report.unresolved report.names)

/-- Creates an environment for `binary`, which can be run and has no parent. -/
def create (binder : Binder) (binary : Bytes) (kind : Kind) : Action (World n σ) EnvError EnvId := do
  let id ← onEnvs (EnvTable.alloc .none kind)
  match ← Action.attempt (prepare binder binary id) with
  | .ok () => return id
  | .error e =>
    onEnvs (EnvTable.free id)
    Action.fail e

end EnvKernel.Env
