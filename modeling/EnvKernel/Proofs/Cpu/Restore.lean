import EnvKernel.Cpu.Restore
import Mathlib.Tactic.Common

/-!
Restoring registers. As long as the saved stack pointer leaves room for the two words that are put below
it, the kernel does not give up; all that can go wrong is that memory is not there.
-/

namespace EnvKernel.Cpu

open Env (Trapframe)
open Memory (PageStore)
open EnvKernel.Action (NeverPanics)

variable {σ ε : Type} [PageStore σ] {tf tf' : Trapframe}

namespace Hardware

theorem neverPanics_load (addr : UInt64) : NeverPanics (load addr : Action (Hardware σ) ε UInt64) := by
  intro h p
  unfold load
  split <;> nofun

theorem neverPanics_store (addr value : UInt64) :
    NeverPanics (store addr value : Action (Hardware σ) ε Unit) := by
  intro h p
  unfold store
  split <;> nofun

theorem neverPanics_pop : NeverPanics (pop : Action (Hardware σ) ε UInt64) := by
  intro h p
  unfold pop
  rw [Action.bind_state_apply]
  refine NeverPanics.bind (neverPanics_load _) (fun _ value _ => ?_) h p
  exact (Action.neverPanics_update _).bind fun _ _ _ => Action.neverPanics_pure value

end Hardware

/-- A word that has room below the saved stack pointer is stored there. -/
theorem pushSaved_of_le (h : 8 ≤ tf.rsp.toNat) (value : UInt64) :
    (pushSaved tf value : Action (Hardware σ) ε Trapframe) =
      Hardware.store (tf.rsp - 8) value >>= fun _ => pure { tf with rsp := tf.rsp - 8 } := by
  have hsub : Word.sub? tf.rsp 8 = some (tf.rsp - 8) := if_pos h
  rw [pushSaved, hsub]

theorem neverPanics_pushSaved (h : 8 ≤ tf.rsp.toNat) (value : UInt64) :
    NeverPanics (pushSaved tf value : Action (Hardware σ) ε Trapframe) := by
  rw [pushSaved_of_le h]
  exact (Hardware.neverPanics_store _ _).bind fun _ _ _ => Action.neverPanics_pure _

theorem toNat_rsp_pushSaved (h : 8 ≤ tf.rsp.toNat) {value : UInt64} {s : Hardware σ}
    (hpush : (pushSaved tf value s : Effect (Hardware σ) ε Trapframe).outcome = .ok tf') :
    tf'.rsp.toNat = tf.rsp.toNat - 8 := by
  rw [pushSaved_of_le h] at hpush
  obtain ⟨_, -, hvalue⟩ := Action.bind_eq_ok_iff.1 hpush
  cases hvalue
  exact UInt64.toNat_sub_of_le _ _ (UInt64.le_iff_toNat_le.2 h)

/-- With room for two words the kernel does not give up. -/
theorem neverPanics_restore (h : 16 ≤ tf.rsp.toNat) :
    NeverPanics (restore tf : Action (Hardware σ) ε Unit) := by
  refine (neverPanics_pushSaved (by omega) tf.rip).bind fun s first hfirst => ?_
  have hroom := toNat_rsp_pushSaved (by omega) hfirst
  refine (neverPanics_pushSaved (by omega) first.rflags).bind fun _ second _ => ?_
  refine (Action.neverPanics_update _).bind fun _ _ _ => ?_
  refine Hardware.neverPanics_pop.bind fun _ _ _ => ?_
  refine (Action.neverPanics_update _).bind fun _ _ _ => ?_
  exact Hardware.neverPanics_pop.bind fun _ _ _ => Action.neverPanics_update _

end EnvKernel.Cpu
