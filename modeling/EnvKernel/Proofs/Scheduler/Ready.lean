import EnvKernel.Proofs.Table.Create
import EnvKernel.Scheduler.Run

/-!
The kernel's table between two looks at it. `Ready` is the invariant of the scheduler: the table is sound,
environments can be run or are running, and every environment has room on its stack for the two words
that are put there before it goes on. Setting the table up establishes it, and creating, switching,
saving with room and giving up preserve it.
-/

namespace EnvKernel.Scheduler

open Env EnvTable
open Memory (AddressSpace)

variable {kernel : Selectors} {t u : KernelTable} {i : Fin defaultSlots}

/-- The kernel can go on with the table. -/
structure Ready (kernel : Selectors) (t : KernelTable) : Prop where
  sound : Sound t
  scheduled : Scheduled t
  config_eq : t.config = .kernelSpace kernel
  room : ∀ i : Fin defaultSlots, t[i].status ≠ .free → 16 ≤ t[i].tf.rsp.toNat

/-! ### Setting up -/

/-- The kernel's table has a capacity and stacks that are accepted. -/
theorem exists_new (kernel : Selectors) :
    ∃ t : KernelTable, EnvTable.new defaultSlots (.kernelSpace kernel) = .ok t := by
  have hcapacity : IsCapacity defaultSlots := by decide
  have hroom : fits defaultSlots (Config.kernelSpace kernel).layout = true := by
    show fits defaultSlots (.shared stackAreaTop stackSize) = true
    decide
  rw [EnvTable.new, dif_pos hcapacity, if_pos hroom]
  exact ⟨_, rfl⟩

theorem ready_of_new (h : EnvTable.new defaultSlots (.kernelSpace kernel) = .ok t) :
    Ready kernel t where
  sound := (fresh_of_new h).sound
  scheduled := (fresh_of_new h).scheduled
  config_eq := (fresh_of_new h).config_eq
  room i hlive := by
    rw [(fresh_of_new h).slots_eq] at hlive
    exact absurd rfl hlive

/-- All stacks of the kernel's table end far above the first addresses. -/
theorem le_stackTop {rsp : UInt64} (i : Fin defaultSlots)
    (h : stackTop (.shared stackAreaTop stackSize) i.val = .ok rsp) : 16 ≤ rsp.toNat := by
  have hi : i.val < 1024 := i.isLt
  have htop : stackAreaTop.toNat = 0x2000000 := rfl
  have hbelow : i.val * stackSize.toNat = i.val * 0x2000 := rfl
  obtain ⟨top, hstack, hvalue⟩ := stackTop_shared (show i.val < 2 ^ 64 by omega)
    (show i.val * stackSize.toNat ≤ stackAreaTop.toNat by omega)
  cases hstack.symm.trans h
  omega

/-! ### What the scheduler does to the table -/

/-- A move leaves the table ready, if the registers that it replaces have room. -/
theorem Ready.move (h : Ready kernel t) {done : List (Event defaultSlots)} (hm : Move t done u)
    (hwritten : done = [] → ∀ j : Fin defaultSlots, u[j].status ≠ .free →
      16 ≤ u[j].tf.rsp.toNat) : Ready kernel u where
  sound := h.sound.move hm
  scheduled := h.scheduled.move hm
  config_eq := (config_move hm).trans h.config_eq
  room j hj := by
    cases hm.fate j with
    | kept env_eq =>
      rw [env_eq] at hj ⊢
      exact h.room j hj
    | demoted env_eq _ running =>
      rw [env_eq]
      exact h.room j (live_of_running? running)
    | taken parent kind rsp env_eq _ top =>
      rw [h.config_eq] at top
      rw [env_eq]
      exact le_stackTop j top
    | givenBack env_eq =>
      rw [env_eq] at hj
      exact absurd rfl hj
    | rewritten _ _ _ done_eq => exact hwritten done_eq j hj
    | selected env_eq _ ready =>
      rw [env_eq]
      exact h.room j (live_of_mayRun ready)

theorem Ready.handOver (h : Ready kernel t) (hi : t[i].status ≠ .free) :
    Ready kernel (t.handOver i) :=
  h.move (.handOver i (h.scheduled.mayRun hi)) nofun

theorem Ready.giveBack (h : Ready kernel t) (hi : t[i].status ≠ .free) :
    Ready kernel (t.giveBack i) :=
  h.move (.giveBack i hi) nofun

theorem Ready.take (h : Ready kernel t) (hhead : t.freeHead = some i) {rsp : UInt64}
    (hrsp : stackTop t.config.layout i.val = .ok rsp) (parent : EnvId) (kind : Kind) :
    Ready kernel (t.take i (t.newcomer i parent kind rsp)) :=
  h.move (.take i parent kind hhead hrsp) nofun

/-- Replacing the registers of an environment by others with room. -/
theorem Ready.rewrite (h : Ready kernel t) (hi : t[i].status ≠ .free) {tf : Trapframe}
    (htf : 16 ≤ tf.rsp.toNat) (binary : Option Bytes) :
    Ready kernel (t.modify i fun env => { env with tf, binary }) := by
  refine h.move (.rewrite i tf binary hi) fun _ j hj => ?_
  by_cases hji : j = i
  · subst hji
    rw [slots_modify_self]
    exact htf
  · rw [slots_modify_other t _ hji] at hj ⊢
    exact h.room j hj

/-- Creating an environment leaves the table ready, if it succeeds. -/
theorem Ready.create {σ : Type} [AddressSpace σ] (h : Ready kernel t) {space : σ} {binary : Bytes}
    {kind : Kind} {id : EnvId}
    (hmade : (Env.create binder binary kind ⟨t, space⟩).outcome = .ok id) :
    Ready kernel (Env.create binder binary kind ⟨t, space⟩).state.envs := by
  cases hhead : t.freeHead with
  | none =>
    rw [create_of_empty binder hhead] at hmade
    cases hmade
  | some i =>
    obtain ⟨rsp, u, hrsp, hprepared, hend⟩ := h.sound.create_cases binder hhead binary kind space
    have htaken := h.take hhead hrsp .none kind
    have hlive := t.live_take i .none kind rsp
    have hu : Ready kernel u := by
      rcases hprepared with rfl | ⟨rip, rfl⟩
      · exact htaken
      · set taken := t.take i (t.newcomer i .none kind rsp)
        have hroom : 16 ≤ ({ taken[i].tf with rip } : Trapframe).rsp.toNat :=
          htaken.room i hlive
        exact htaken.rewrite hlive hroom (some binary)
    rcases hend with ⟨-, henvs⟩ | ⟨how, hstop, -⟩ | ⟨e, herror, -⟩
    · rw [henvs]
      exact hu
    · rw [hstop] at hmade
      cases hmade
    · rw [herror] at hmade
      cases hmade

end EnvKernel.Scheduler
