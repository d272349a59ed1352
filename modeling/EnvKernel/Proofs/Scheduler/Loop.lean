import EnvKernel.Proofs.Cpu.Restore
import EnvKernel.Proofs.Scheduler.Locked
import EnvKernel.Proofs.Scheduler.Ready

/-!
The scheduling loop. The kernel sets its table up, creates environments and gives the processor away.
From then on the environment that has the processor calls the kernel, and the kernel gives the processor
away again, until nobody is left. `loop_safe` is the main statement: wherever control is on the way, the
lock is free, the next thing that is done succeeds, and the environment that has the processor is the
current one. What succeeds neither gives up nor asks for a lock that is held, since either would stop the
kernel.
-/

namespace EnvKernel.Scheduler

open Env EnvTable
open Memory (AddressSpace PageStore)

/-- A computation of the scheduler, which has no errors of its own. -/
abbrev Step (σ α : Type) : Type := Action (System σ) Empty α

variable {σ : Type}

/-- What an environment that has the processor calls the kernel for. That it asks who it is changes
nothing and is left to `currentId`. -/
inductive Call where
  /-- It is to go on with these registers later. Its stack has room for two words. -/
  | yield (tf : Trapframe) (room : 16 ≤ tf.rsp.toNat)
  | exit

namespace Call

/-- What a call does with the caller. -/
def settle : Call → Step σ Unit
  | yield tf _ => withTable (Action.orGiveUp .yield (onEnvs (saveCurrent tf)))
  | exit => withTable (Action.orGiveUp .destroy (onEnvs (free .none)))

/-- The whole call. -/
def serve : Call → Step σ Transfer
  | yield tf _ => saveAndYield tf
  | exit => Scheduler.exit

/-- The kernel is done with the caller before it looks for the next environment. -/
theorem serve_eq (c : Call) : (c.serve : Step σ Transfer) = c.settle >>= fun _ => yieldNow := by
  cases c <;> rfl

end Call

/-- The environment that the kernel runs next. -/
def next? (s : System σ) : Option EnvId := s.envs.bind fun l => l.value.nextRunnable

/-- Where control is. -/
inductive Place where
  /-- In the kernel, which is about to give the processor away. -/
  | deciding
  /-- In an environment, which was given the processor with these registers. -/
  | environment (id : EnvId) (tf : Trapframe)
  | halted

/-- A system that was set up and in which any number of environments was created, each through memory
of its own. -/
inductive Started [AddressSpace σ] (kernel : Selectors) : System σ → Prop where
  | init (space : σ) : Started kernel ((init kernel : Step σ Unit) ⟨none, space⟩).state
  | create {s : System σ} {id : EnvId} (space : σ) (binary : Bytes) (kind : Kind)
      (started : Started kernel s)
      (made : ((create binary kind : Step σ EnvId) { s with space }).outcome = .ok id) :
      Started kernel ((create binary kind : Step σ EnvId) { s with space }).state

/-- A system in the scheduling loop, and where control is. -/
inductive Loop [AddressSpace σ] (kernel : Selectors) : Place → System σ → Prop where
  | start {s : System σ} (started : Started kernel s) : Loop kernel .deciding s
  | resume {s : System σ} {id : EnvId} {tf : Trapframe} (loop : Loop kernel .deciding s)
      (next : next? s = some id)
      (given : ((yieldNow : Step σ Transfer) s).outcome = .ok (.resume tf)) :
      Loop kernel (.environment id tf) ((yieldNow : Step σ Transfer) s).state
  | halt {s : System σ} (loop : Loop kernel .deciding s)
      (given : ((yieldNow : Step σ Transfer) s).outcome = .ok .halt) :
      Loop kernel .halted ((yieldNow : Step σ Transfer) s).state
  | call {s : System σ} {id : EnvId} {tf : Trapframe} (c : Call)
      (loop : Loop kernel (.environment id tf) s) (settled : (c.settle s).outcome = .ok ()) :
      Loop kernel .deciding (c.settle s).state

/-! ### What is known of the table -/

variable {kernel : Selectors} {t : KernelTable} {id : EnvId} {tf : Trapframe}
  {i : Fin defaultSlots}

/-- What the table is like when control is at a place. -/
def Place.Fits (t : KernelTable) : Place → Prop
  | .deciding => True
  | .environment id tf => ∃ i, t.running? = some i ∧ t[i].id = id ∧ t[i].tf = tf
  | .halted => t.live = []

theorem init_eq (kernel : Selectors) (space : σ) : ∃ t : KernelTable, Ready kernel t ∧
    (init kernel : Step σ Unit) ⟨none, space⟩ =
      ⟨.ok (), .unlocked t space, [.log (.tableReady defaultSlots)]⟩ := by
  obtain ⟨t, ht⟩ := exists_new kernel
  refine ⟨t, ready_of_new ht, ?_⟩
  rw [init, Action.bind_state_apply]
  simp only [ht]
  rfl

/-- The kernel's next environment is found, and gets the processor. -/
theorem Ready.yieldNow_eq (h : Ready kernel t) (space : σ) (hnext : t.nextRunnable = some id) :
    ∃ i : Fin defaultSlots, t[i].status ≠ .free ∧ t[i].id = id ∧
      (yieldNow : Step σ Transfer) (.unlocked t space) =
        ⟨.ok (.resume t[i].tf), .unlocked (t.handOver i) space, []⟩ := by
  obtain ⟨i, rfl, hlive⟩ := live_of_nextRunnable hnext
  refine ⟨i, hlive, rfl, ?_⟩
  rw [yieldNow_of_some hnext, run_of_ok h.scheduled (h.sound.resolveEnv_id hlive)]

/-- The running environment is the caller, and no call fails for it. -/
theorem Ready.settle_eq (h : Ready kernel t) (space : σ) (hrun : t.running? = some i) (c : Call) :
    ∃ u : KernelTable, Ready kernel u ∧
      c.settle (.unlocked t space) = ⟨.ok (), .unlocked u space, []⟩ := by
  have hcaller := resolveEnv_none_eq_ok_iff.2 hrun
  have hlive := live_of_resolveEnv hcaller
  cases c with
  | yield tf room =>
    refine ⟨_, h.rewrite hlive room t[i].binary, ?_⟩
    rw [Call.settle, section_of_ok (saveCurrent_of_ok hcaller tf)]
    rfl
  | exit => exact ⟨_, h.giveBack hlive, section_of_ok (free_of_ok hcaller) _⟩

/-! ### What is promised -/

/-- The kernel can give the processor away, and halts only where nobody is left. -/
structure Decides (s : System σ) (t : KernelTable) : Prop where
  given : ∃ transfer, ((yieldNow : Step σ Transfer) s).outcome = .ok transfer
  halt_iff : ((yieldNow : Step σ Transfer) s).outcome = .ok .halt ↔ t.live = []
  /-- The next environment is the one that the kernel asks the table to run. -/
  run_next : ∀ id, next? s = some id → (yieldNow : Step σ Transfer) s = run id s

/-- Environment `id` has the processor, went on with registers `tf`, and can call the kernel. -/
structure Works (id : EnvId) (tf : Trapframe) (s : System σ) (t : KernelTable) : Prop where
  current : ∃ env, t.current? = some env ∧ env.id = id ∧ env.tf = tf
  told : currentId s = id
  nonzero : id.raw ≠ 0
  restored : ∀ (τ : Type) [PageStore τ],
    (Cpu.restore tf : Action (Cpu.Hardware τ) Empty Unit).NeverPanics
  settled : ∀ c : Call, (c.settle s).outcome = .ok ()
  served : ∀ c : Call, ∃ transfer, (c.serve s).outcome = .ok transfer

/-- What is promised where control is. -/
def Place.Safe (s : System σ) (t : KernelTable) : Place → Prop
  | .deciding => Decides s t
  | .environment id tf => Works id tf s t
  | .halted => t.live = []

theorem Ready.decides (h : Ready kernel t) (space : σ) : Decides (.unlocked t space) t := by
  cases hnext : t.nextRunnable with
  | none =>
    have hyield : (yieldNow : Step σ Transfer) (.unlocked t space) = _ := yieldNow_of_none hnext
    refine ⟨⟨.halt, by rw [hyield]⟩, ?_, fun id hid => ?_⟩
    · rw [hyield]
      exact iff_of_true rfl (h.scheduled.nextRunnable_eq_none_iff.1 hnext)
    · cases hnext.symm.trans hid
  | some id =>
    obtain ⟨i, -, -, hyield⟩ := h.yieldNow_eq space hnext
    refine ⟨⟨_, by rw [hyield]⟩, ?_, fun id hid => yieldNow_of_some hid⟩
    rw [hyield, ← h.scheduled.nextRunnable_eq_none_iff, hnext]
    exact iff_of_false nofun nofun

theorem Ready.works (h : Ready kernel t) (space : σ) (hrun : t.running? = some i) :
    Works t[i].id t[i].tf (.unlocked t space) t := by
  have hlive := live_of_running? hrun
  have hcurrent : t.current? = some t[i] := by rw [current?, hrun, Option.map_some]
  refine ⟨⟨_, hcurrent, rfl, rfl⟩, ?_, fun hzero => ?_, fun τ _ => ?_, fun c => ?_, fun c => ?_⟩
  · rw [currentId_unlocked, EnvTable.currentId, hcurrent]
  · exact EnvId.raw_ne_zero (h.sound.raw_pos hlive) hzero
  · exact Cpu.neverPanics_restore (h.room i hlive)
  · obtain ⟨u, -, hsettle⟩ := h.settle_eq space hrun c
    rw [hsettle]
  · obtain ⟨u, hu, hsettle⟩ := h.settle_eq space hrun c
    obtain ⟨transfer, hyield⟩ := (hu.decides space).given
    rw [Call.serve_eq, Action.bind_of_ok hsettle]
    exact ⟨transfer, hyield⟩

/-! ### Around the loop -/

variable [AddressSpace σ] {s : System σ} {place : Place}

/-- Whatever was created before the first switch, the lock is free and the table is ready. -/
theorem Started.ready (h : Started kernel s) : ∃ t space, s = .unlocked t space ∧ Ready kernel t := by
  induction h with
  | init space =>
    obtain ⟨t, ht, hinit⟩ := init_eq kernel space
    rw [hinit]
    exact ⟨t, space, rfl, ht⟩
  | create space binary kind _ made ih =>
    obtain ⟨t, _, rfl, ht⟩ := ih
    obtain ⟨hmade, hstate⟩ := withTable_eq_ok made
    rw [Action.orGiveUp_eq_ok_iff] at hmade
    rw [Action.state_orGiveUp] at hstate
    exact ⟨_, _, hstate, ht.create hmade⟩

/-- Wherever control is, the lock is free and the table is ready and fits the place. -/
theorem Loop.ready (h : Loop kernel place s) :
    ∃ t space, s = .unlocked t space ∧ Ready kernel t ∧ place.Fits t := by
  induction h with
  | start started =>
    obtain ⟨t, space, rfl, ht⟩ := started.ready
    exact ⟨t, space, rfl, ht, trivial⟩
  | resume _ next given ih =>
    obtain ⟨t, space, rfl, ht, -⟩ := ih
    obtain ⟨i, hlive, hid, hyield⟩ := ht.yieldNow_eq space next
    rw [hyield] at given ⊢
    cases given
    refine ⟨_, space, rfl, ht.handOver hlive, i, t.running?_handOver i, ?_⟩
    rw [slots_handOver_self, hid]
    exact ⟨rfl, rfl⟩
  | halt _ given ih =>
    obtain ⟨t, space, rfl, ht, -⟩ := ih
    cases hnext : t.nextRunnable with
    | some id =>
      obtain ⟨i, -, -, hyield⟩ := ht.yieldNow_eq space hnext
      rw [hyield] at given
      cases given
    | none =>
      rw [yieldNow_of_none hnext]
      exact ⟨t, space, rfl, ht, ht.scheduled.nextRunnable_eq_none_iff.1 hnext⟩
  | call c _ _ ih =>
    obtain ⟨t, space, rfl, ht, i, hrun, -⟩ := ih
    obtain ⟨u, hu, hsettle⟩ := ht.settle_eq space hrun c
    rw [hsettle]
    exact ⟨u, space, rfl, hu, trivial⟩

/-- Wherever control is in the scheduling loop, the lock is free, and what comes next succeeds. -/
theorem loop_safe (h : Loop kernel place s) :
    ∃ t : KernelTable, s.envs = some (.new t) ∧ place.Safe s t := by
  obtain ⟨t, space, rfl, ht, hfits⟩ := h.ready
  refine ⟨t, rfl, ?_⟩
  cases place with
  | deciding => exact ht.decides space
  | environment id tf =>
    obtain ⟨i, hrun, rfl, rfl⟩ := hfits
    exact ht.works space hrun
  | halted => exact hfits

/-- An image of two sections, the uninitialised data and the names. -/
def tinyImage : Bytes := ⟨#[
  0x7f, 0x45, 0x4c, 0x46, 2, 0, 0, 0, 0, 0, 0, 0, 0, 0, 0, 0,
  2, 0, 0, 0, 0, 0, 0, 0, 1, 0, 0, 0, 0, 0, 0, 0,
  64, 0, 0, 0, 0, 0, 0, 0, 64, 0, 0, 0, 0, 0, 0, 0,
  0, 0, 0, 0, 0, 0, 56, 0, 0, 0, 64, 0, 2, 0, 1, 0,
  -- the section `.bss`
  1, 0, 0, 0, 8, 0, 0, 0, 0, 0, 0, 0, 0, 0, 0, 0, 0, 0, 0, 0, 0, 0, 0, 0, 0, 0, 0, 0, 0, 0, 0, 0,
  0, 0, 0, 0, 0, 0, 0, 0, 0, 0, 0, 0, 0, 0, 0, 0, 0, 0, 0, 0, 0, 0, 0, 0, 0, 0, 0, 0, 0, 0, 0, 0,
  -- the section `.strtab`
  6, 0, 0, 0, 3, 0, 0, 0, 0, 0, 0, 0, 0, 0, 0, 0, 0, 0, 0, 0, 0, 0, 0, 0, 192, 0, 0, 0, 0, 0, 0, 0,
  14, 0, 0, 0, 0, 0, 0, 0, 0, 0, 0, 0, 0, 0, 0, 0, 0, 0, 0, 0, 0, 0, 0, 0, 0, 0, 0, 0, 0, 0, 0, 0,
  0, 0x2e, 0x62, 0x73, 0x73, 0, 0x2e, 0x73, 0x74, 0x72, 0x74, 0x61, 0x62, 0], by decide +kernel⟩

/-- An environment that was created alone gets the processor and starts at its entry point. -/
theorem loop_safe_alone : ∃ (s : System Memory.SparseSpace) (t : KernelTable) (tf : Trapframe),
    tf.rip = 1 ∧ tf.rsp = 0x2000000 ∧ Loop ⟨8, 16⟩ (.environment ⟨0x1000⟩ tf) s ∧
      s.envs = some (.new t) ∧ Works ⟨0x1000⟩ tf s t := by
  have hinit : Started ⟨8, 16⟩ (_ : System Memory.SparseSpace) := .init {}
  have hmade := hinit.create {} tinyImage .kernel
    (by decide +kernel : _ = Outcome.ok (⟨0x1000⟩ : EnvId))
  have hfirst := (Loop.start hmade).resume (by decide +kernel : _ = some (⟨0x1000⟩ : EnvId))
    (by decide +kernel :
      _ = Outcome.ok (Transfer.resume { Trapframe.initial ⟨8, 16⟩ 0x2000000 with rip := 1 }))
  obtain ⟨t, hlock, hworks⟩ := loop_safe hfirst
  exact ⟨_, t, _, rfl, rfl, hfirst, hlock, hworks⟩

end EnvKernel.Scheduler
