import EnvKernel.Env.Create
import EnvKernel.Proofs.Table.Operation

/-!
Creation seen from the table. Whatever happens in memory, creating an environment hands out the first
free slot, may set the entry point and the image of that one slot, and gives it back exactly if it ends
with an error.
-/

namespace EnvKernel.Env

open Memory (AddressSpace)

variable {n : Nat} {σ ε α : Type}

/-! ### Parts of the world -/

theorem onEnvs_eq {x : Action (EnvTable n) ε α} {t u : EnvTable n} {outcome : Outcome ε α}
    {said : List Output} (h : x t = ⟨outcome, u, said⟩) (s : σ) :
    onEnvs x ⟨t, s⟩ = ⟨outcome, ⟨u, s⟩, said⟩ := by
  rw [onEnvs, Action.onPart, h]

@[simp] theorem state_onEnvs (x : Action (EnvTable n) ε α) (w : World n σ) :
    (onEnvs x w).state = { w with envs := (x w.envs).state } := rfl

@[simp] theorem outcome_onEnvs (x : Action (EnvTable n) ε α) (w : World n σ) :
    (onEnvs x w).outcome = (x w.envs).outcome := rfl

@[simp] theorem outcome_onSpace (x : Action σ ε α) (w : World n σ) :
    (onSpace x w).outcome = (x w.space).outcome := rfl

@[simp] theorem state_onSpace (x : Action σ ε α) (w : World n σ) :
    (onSpace x w).state = { w with space := (x w.space).state } := rfl

variable [AddressSpace σ]

/-- Loading sets the entry point and the image of the environment, and nothing else. -/
theorem load_eq_ok {env loaded : Environment} {binary : Bytes} {s : σ}
    (h : (Program.load env binary s).outcome = .ok loaded) :
    ∃ asked, Program.examine binary = .ok asked ∧
      loaded = { env with tf := { env.tf with rip := asked.1.entry }, binary := some binary } := by
  rw [Program.load] at h
  cases hexamine : Program.examine binary with
  | error e =>
    simp only [hexamine] at h
    cases h
  | ok asked =>
    simp only [hexamine] at h
    obtain ⟨_, -, hvalue⟩ := Action.bind_eq_ok_iff.1 h
    cases hvalue
    exact ⟨asked, rfl, rfl⟩

namespace EnvTable

variable {t : EnvTable n} {id : EnvId} {i : Fin n} (binder : Binder) {binary : Bytes}

/-- Slot `i` loaded: the environment starts at `rip` and has an image. -/
def load (t : EnvTable n) (i : Fin n) (rip : UInt64) (binary : Bytes) : EnvTable n :=
  t.modify i fun env => { env with tf := { env.tf with rip }, binary := some binary }

/-- The table `u` is `t`, or `t` with slot `i` loaded. -/
def Prepared (t : EnvTable n) (i : Fin n) (binary : Bytes) (u : EnvTable n) : Prop :=
  u = t ∨ ∃ rip, u = t.load i rip binary

/-- Preparing an environment changes no slot but its own, and that one only by loading it. -/
theorem prepared_prepare (binary : Bytes) (hid : t.resolve id false = .ok (some i)) (s : σ) :
    Prepared t i binary (prepare binder binary id ⟨t, s⟩).state.envs := by
  have hget : t.get id false = .ok (some t[i]) := by rw [get, hid]; rfl
  unfold prepare
  refine Action.bind_keeps (P := Prepared t i binary ∘ World.envs) ?_ fun stack _ => ?_
  · exact .inl (state_stackRegion id t)
  rw [state_onEnvs, state_stackRegion]
  refine Action.bind_keeps (P := Prepared t i binary ∘ World.envs) ?_ fun _ _ => ?_
  · exact .inl (by rw [Action.state_mapError, state_onSpace])
  rw [Action.state_mapError, state_onSpace, Action.bind_state_apply]
  simp only [hget, Action.bind_ofExcept_apply]
  refine Action.bind_keeps (P := Prepared t i binary ∘ World.envs) ?_ fun loaded hloaded => ?_
  · exact .inl (by rw [Action.state_mapError, state_onSpace])
  rw [Action.mapError_eq_ok_iff, outcome_onSpace] at hloaded
  obtain ⟨asked, -, rfl⟩ := load_eq_ok hloaded
  have hload : Prepared t i binary (t.load i asked.1.entry binary) := .inr ⟨_, rfl⟩
  refine Action.bind_keeps (P := Prepared t i binary ∘ World.envs) ?_ fun _ _ => ?_
  · rw [Action.state_mapError, state_onSpace, Function.comp_apply, state_onEnvs,
      getModify_of_ok hid]
    exact hload
  refine Action.bind_keeps (P := Prepared t i binary ∘ World.envs) ?_ fun _ _ => ?_
  all_goals
    rw [Action.state_mapError, state_onSpace, Action.state_mapError, state_onSpace,
      state_onEnvs, getModify_of_ok hid]
    exact hload

/-- An environment that was prepared starts where its image says. -/
theorem envs_prepare (binary : Bytes) (hid : t.resolve id false = .ok (some i)) {s : σ}
    (hok : (prepare binder binary id ⟨t, s⟩).outcome = .ok ()) : ∃ asked,
      Program.examine binary = .ok asked ∧
        (prepare binder binary id ⟨t, s⟩).state.envs = t.load i asked.1.entry binary := by
  have hget : t.get id false = .ok (some t[i]) := by rw [get, hid]; rfl
  let P := fun w : World n σ => ∃ asked, Program.examine binary = .ok asked ∧
    w.envs = t.load i asked.1.entry binary
  unfold prepare at hok ⊢
  refine Action.bind_keeps_of_ok (P := P) hok fun stack _ hok => ?_
  rw [state_onEnvs, state_stackRegion] at hok ⊢
  refine Action.bind_keeps_of_ok (P := P) hok fun _ _ hok => ?_
  rw [Action.state_mapError, state_onSpace, Action.bind_state_apply] at hok ⊢
  simp only [hget, Action.bind_ofExcept_apply] at hok ⊢
  refine Action.bind_keeps_of_ok (P := P) hok fun loaded hloaded _ => ?_
  rw [Action.mapError_eq_ok_iff, outcome_onSpace] at hloaded
  obtain ⟨asked, hexamine, rfl⟩ := load_eq_ok hloaded
  refine Action.bind_keeps (P := P) ?_ fun _ _ => Action.bind_keeps (P := P) ?_ fun _ _ => ?_
  all_goals
    simp only [Action.state_mapError, state_onSpace, state_onEnvs, getModify_of_ok hid]
    exact ⟨asked, hexamine, rfl⟩

theorem Prepared.moves {u : EnvTable n} (h : Prepared t i binary u)
    (hlive : t[i].status ≠ .free) : Moves t [] u := by
  rcases h with rfl | ⟨rip, rfl⟩
  · exact .refl _
  · exact .single (.rewrite i { t[i].tf with rip } (some binary) hlive)

theorem Prepared.slots {u : EnvTable n} (h : Prepared t i binary u) :
    u[i].id = t[i].id ∧ u[i].status = t[i].status := by
  rcases h with rfl | ⟨rip, rfl⟩
  · exact ⟨rfl, rfl⟩
  · rw [load, slots_modify_self]
    exact ⟨rfl, rfl⟩

/-- Preparing the environment in slot `i` changes nothing else in the table. -/
theorem Prepared.others {u : EnvTable n} (h : Prepared t i binary u) :
    (∀ j, j ≠ i → u[j] = t[j]) ∧ u.link = t.link ∧ u.freeHead = t.freeHead ∧
      u.current = t.current ∧ u.config = t.config := by
  rcases h with rfl | ⟨rip, rfl⟩
  · exact ⟨fun _ _ => rfl, rfl, rfl, rfl, rfl⟩
  · exact ⟨fun j hj => t.slots_modify_other _ hj, rfl, rfl, rfl, rfl⟩

/-- Creating an environment without a free slot fails and changes nothing. -/
theorem create_of_empty (h : t.freeHead = none) (binary : Bytes) (kind : Kind) (s : σ) :
    create binder binary kind ⟨t, s⟩ = ⟨.error .noFreeSlots, ⟨t, s⟩, []⟩ :=
  Action.bind_of_error (onEnvs_eq (alloc_of_empty h .none kind) s)

/-- A slot that was handed out is live. -/
theorem live_take (t : EnvTable n) (i : Fin n) (parent : EnvId) (kind : Kind) (rsp : UInt64) :
    (t.take i (t.newcomer i parent kind rsp))[i].status ≠ .free := by
  rw [slots_take_self]
  nofun

/-- The environment that the first free slot is handed out to is found by its handle. -/
theorem Sound.resolve_take (h : Sound t) (hhead : t.freeHead = some i) {rsp : UInt64}
    (hrsp : stackTop t.config.layout i.val = .ok rsp) (parent : EnvId) (kind : Kind) :
    (t.take i (t.newcomer i parent kind rsp)).resolve (t[i].id.next i.val) false =
      .ok (some i) := by
  have hsound := h.move (.take i parent kind hhead hrsp)
  have hfound := resolveEnv_eq_ok_iff.1 (hsound.resolveEnv_id (t.live_take i parent kind rsp))
  rwa [slots_take_self] at hfound

/-- The environment that a slot was handed out to is found by its handle after it was prepared. -/
theorem Sound.resolveEnv_prepared {u : EnvTable n} (h : Sound t) (hhead : t.freeHead = some i)
    {rsp : UInt64} (hrsp : stackTop t.config.layout i.val = .ok rsp) {parent : EnvId} {kind : Kind}
    (hu : Prepared (t.take i (t.newcomer i parent kind rsp)) i binary u) :
    Sound u ∧ u.resolveEnv (t[i].id.next i.val) = .ok i := by
  have hlive := t.live_take i parent kind rsp
  have hsound := (h.move (.take i parent kind hhead hrsp)).moves (hu.moves hlive)
  obtain ⟨hid, hstatus⟩ := hu.slots
  have hfound := hsound.resolveEnv_id (hstatus ▸ hlive : u[i].status ≠ .free)
  rw [hid, slots_take_self] at hfound
  exact ⟨hsound, hfound⟩

/-- Giving the slot back after an environment was prepared never fails. -/
theorem Sound.free_prepared {u : EnvTable n} (h : Sound t) (hhead : t.freeHead = some i) {rsp : UInt64}
    (hrsp : stackTop t.config.layout i.val = .ok rsp) (parent : EnvId) (kind : Kind)
    (hu : Prepared (t.take i (t.newcomer i parent kind rsp)) i binary u) :
    free (t[i].id.next i.val) u = { outcome := .ok (), state := u.giveBack i } :=
  free_of_ok (h.resolveEnv_prepared hhead hrsp hu).2

/-- Creating an environment in slot `i` ends as preparing it does, with the slot given back if that is an
error. -/
theorem Sound.create_eq (h : Sound t) (hhead : t.freeHead = some i) {rsp : UInt64}
    (hrsp : stackTop t.config.layout i.val = .ok rsp) (binary : Bytes) (kind : Kind) (s : σ) :
    create binder binary kind ⟨t, s⟩ =
      match prepare binder binary (t[i].id.next i.val) ⟨t.take i (t.newcomer i .none kind rsp), s⟩ with
      | ⟨.ok (), w, said⟩ => ⟨.ok (t[i].id.next i.val), w, said⟩
      | ⟨.error e, w, said⟩ => ⟨.error e, { w with envs := w.envs.giveBack i }, said⟩
      | ⟨.stop how, w, said⟩ => ⟨.stop how, w, said⟩ := by
  set taken := t.take i (t.newcomer i .none kind rsp) with htaken
  have halloc : onEnvs (alloc .none kind) (⟨t, s⟩ : World n σ) =
      ⟨.ok (t[i].id.next i.val), ⟨taken, s⟩, []⟩ :=
    onEnvs_eq (alloc_of_head hhead hrsp .none kind) s
  have hprepared := prepared_prepare binder binary (h.resolve_take hhead hrsp .none kind) s
  rw [create, Action.bind_of_ok halloc]
  rcases hend : prepare binder binary (t[i].id.next i.val) (⟨taken, s⟩ : World n σ) with
    ⟨outcome, w, said⟩
  rw [hend] at hprepared
  cases outcome with
  | ok u =>
    rw [Action.bind_of_ok (Action.attempt_of_ok hend)]
    simp
  | stop how => rw [Action.bind_of_stop (Action.attempt_of_stop hend), List.nil_append]
  | error e =>
    have hback : onEnvs (free (t[i].id.next i.val)) w =
        ⟨.ok (), { w with envs := w.envs.giveBack i }, []⟩ :=
      onEnvs_eq (h.free_prepared hhead hrsp .none kind hprepared) w.space
    rw [Action.bind_of_ok (Action.attempt_of_error hend)]
    simp only [Action.bind_of_ok hback]
    simp [Action.fail]

/-- How creating an environment in slot `i` ends: the slot is handed out and perhaps loaded, and it is
given back exactly if there is an error. -/
theorem Sound.create_cases (h : Sound t) (hhead : t.freeHead = some i) (binary : Bytes) (kind : Kind)
    (s : σ) :
    ∃ rsp u, stackTop t.config.layout i.val = .ok rsp ∧
      Prepared (t.take i (t.newcomer i .none kind rsp)) i binary u ∧
      let made := create binder binary kind ⟨t, s⟩
      (made.outcome = .ok (t[i].id.next i.val) ∧ made.state.envs = u) ∨
        (∃ how, made.outcome = .stop how ∧ made.state.envs = u) ∨
        ∃ e, made.outcome = .error e ∧ made.state.envs = u.giveBack i := by
  obtain ⟨rsp, hrsp⟩ := h.exists_stackTop i
  have hprepared := prepared_prepare binder binary (h.resolve_take hhead hrsp .none kind) s
  refine ⟨rsp, _, hrsp, hprepared, ?_⟩
  rw [h.create_eq binder hhead hrsp]
  split <;> rename_i hend <;> rw [hend]
  · exact .inl ⟨rfl, rfl⟩
  · exact .inr (.inr ⟨_, rfl, rfl⟩)
  · exact .inr (.inl ⟨_, rfl, rfl⟩)

/-- An environment that was created in slot `i` starts where its image says. -/
theorem Sound.envs_create (h : Sound t) (hhead : t.freeHead = some i) {rsp : UInt64}
    (hrsp : stackTop t.config.layout i.val = .ok rsp) {kind : Kind} {s : σ}
    (hok : (create binder binary kind ⟨t, s⟩).outcome = .ok id) : ∃ asked,
      Program.examine binary = .ok asked ∧ (create binder binary kind ⟨t, s⟩).state.envs =
        (t.take i (t.newcomer i .none kind rsp)).load i asked.1.entry binary := by
  rw [h.create_eq binder hhead hrsp] at hok ⊢
  rcases hend : prepare binder binary (t[i].id.next i.val)
      (⟨t.take i (t.newcomer i .none kind rsp), s⟩ : World n σ) with ⟨outcome, w, said⟩
  rw [hend] at hok
  cases outcome with
  | error | stop => cases hok
  | ok =>
    have henvs := envs_prepare binder binary (h.resolve_take hhead hrsp .none kind)
      (congrArg Effect.outcome hend)
    rwa [hend] at henvs

end EnvTable

end EnvKernel.Env
