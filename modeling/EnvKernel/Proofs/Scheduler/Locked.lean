import EnvKernel.Proofs.Table.Create
import EnvKernel.Proofs.Table.Next
import EnvKernel.Scheduler.Run

/-!
What the scheduler does while nobody holds the lock. Each function takes the lock once for every look at
the table and gives it back before it goes on, so that a computation on the table that succeeds leaves
the lock free.
-/

namespace EnvKernel.Scheduler

open Env EnvTable

/-- A system with table `t`, whose lock nobody holds. -/
def System.unlocked {σ : Type} (t : KernelTable) (space : σ) : System σ := ⟨some (.new t), space⟩

variable {σ ε α : Type} {t u : KernelTable} {space space' : σ} {a : α} {said : List Output}
  {id : EnvId} {i : Fin defaultSlots}

/-! ### Sections under the lock -/

theorem withTable_of_ok {x : Action (World defaultSlots σ) ε α}
    (h : x ⟨t, space⟩ = ⟨.ok a, ⟨u, space'⟩, said⟩) :
    withTable x (.unlocked t space) = ⟨.ok a, .unlocked u space', said⟩ := by
  have htry : (Spinlock.new t).tryLock = (true, { locked := true, value := t }) := rfl
  simp only [withTable, System.unlocked, htry, h]
  rfl

/-- A section that succeeds leaves the lock free, and table and memory as the computation does. -/
theorem withTable_eq_ok {x : Action (World defaultSlots σ) ε α}
    (h : (withTable x (.unlocked t space)).outcome = .ok a) :
    (x ⟨t, space⟩).outcome = .ok a ∧ (withTable x (.unlocked t space)).state =
      .unlocked (x ⟨t, space⟩).state.envs (x ⟨t, space⟩).state.space := by
  have htry : (Spinlock.new t).tryLock = (true, { locked := true, value := t }) := rfl
  rcases hx : x ⟨t, space⟩ with ⟨outcome, w, out⟩
  cases outcome with
  | ok b =>
    rw [withTable_of_ok hx] at h ⊢
    cases h
    exact ⟨rfl, rfl⟩
  | error e | stop how =>
    simp only [withTable, System.unlocked, htry, hx] at h
    cases h

/-- A computation on the table alone, for which an error is a reason to give up. -/
theorem section_of_ok {x : Action KernelTable EnvError α} (h : x t = ⟨.ok a, u, said⟩)
    (f : EnvError → Panic) :
    (withTable (Action.orGiveUp f (onEnvs x)) (.unlocked t space) : Effect (System σ) ε α) =
      ⟨.ok a, .unlocked u space, said⟩ := by
  apply withTable_of_ok
  simp only [Action.orGiveUp, onEnvs_eq h]

/-! ### Giving the processor away -/

/-- Whoever is found gets the processor. -/
theorem run_of_ok (h : Scheduled t) (hid : t.resolveEnv id = .ok i) :
    (run id (.unlocked t space) : Effect (System σ) ε Transfer) =
      ⟨.ok (.resume t[i].tf), .unlocked (t.handOver i) space, []⟩ := by
  rw [run, Action.bind_of_ok (section_of_ok (h.switchTo_eq hid) _)]
  rfl

theorem look_eq : (withTable (do return (← Action.state).envs.nextRunnable) (.unlocked t space) :
    Effect (System σ) ε (Option EnvId)) = ⟨.ok t.nextRunnable, .unlocked t space, []⟩ :=
  withTable_of_ok rfl

/-- The next environment is the one that is run. -/
theorem yieldNow_of_some (h : t.nextRunnable = some id) :
    (yieldNow (.unlocked t space) : Effect (System σ) ε Transfer) = run id (.unlocked t space) := by
  rw [yieldNow, Action.bind_of_ok look_eq, h]
  rfl

theorem yieldNow_of_none (h : t.nextRunnable = none) :
    (yieldNow (.unlocked t space) : Effect (System σ) ε Transfer) =
      ⟨.ok .halt, .unlocked t space, [.log .nothingRunnable]⟩ := by
  rw [yieldNow, Action.bind_of_ok look_eq, h]
  rfl

theorem currentId_unlocked : currentId (.unlocked t space) = t.currentId := rfl

end EnvKernel.Scheduler
