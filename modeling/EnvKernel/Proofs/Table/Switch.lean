import EnvKernel.Proofs.Table.Run

/-!
Switching, whatever state the slots are in. In runs every environment can be run or is running, but whoever
looks an environment up may give it any other state. `switchTo_exact` is the main statement: for every table
whose environments have handles of their own slots, it says which handles are refused, which environments may
not run, when the kernel stops, and what a switch that succeeds changes. `Sound.setStatus` says that such
tables stay as they are in all other respects when a state is set.
-/

namespace EnvKernel.Env.EnvTable

variable {n : Nat} {t u : EnvTable n} {id : EnvId} {i j : Fin n}

/-- Every environment has a handle, and it is one of its slot. -/
def Handled (t : EnvTable n) : Prop :=
  ∀ i : Fin n, t[i].status ≠ .free → t[i].id ≠ .none ∧ t[i].id.slot = i.val

/-- A handle names the environment that has it, in whatever slot. No handle names the running one. -/
def Names (t : EnvTable n) (id : EnvId) (i : Fin n) : Prop :=
  if id = .none then t.current = some i ∧ t[i].status = .running
  else t[i].status ≠ .free ∧ t[i].id = id

/-- The environment in slot `i` waits for the processor, or has it. -/
def CanRun (t : EnvTable n) (i : Fin n) : Prop :=
  t[i].status = .runnable ∨ t[i].status = .running ∧ t.current = some i

/-- Slot `i` would get the processor from an environment that is being destroyed. -/
def FromDying (t : EnvTable n) (i : Fin n) : Prop :=
  ∃ p, t.current = some p ∧ p ≠ i ∧ t[p].status = .dying

instance : Decidable (t.Names id i) := inferInstanceAs (Decidable (ite _ _ _))

instance : Decidable (t.CanRun i) := inferInstanceAs (Decidable (_ ∨ _))

instance : Decidable (t.FromDying i) := inferInstanceAs (Decidable (∃ _, _))

/-- The table `u` is `t` after the processor went to slot `i`, and differs in nothing else. -/
structure GivenTo (t : EnvTable n) (i : Fin n) (u : EnvTable n) : Prop where
  current_eq : u.current = some i
  target_eq : u[i] = { t[i] with status := .running, runs := t[i].runs + 1 }
  /-- The counter of turns goes around. -/
  runs_eq : u[i].runs.toNat = (t[i].runs.toNat + 1) % 2 ^ 32
  previous_eq : ∀ p, p ≠ i → t.current = some p → t[p].status = .running →
    u[p] = { t[p] with status := .runnable }
  others_eq : ∀ j, j ≠ i → ¬ (t.current = some j ∧ t[j].status = .running) → u[j] = t[j]
  links_eq : u.links = t.links
  freeHead_eq : u.freeHead = t.freeHead
  config_eq : u.config = t.config

/-- What a switch to `id` does in table `t`. -/
structure Switches (id : EnvId) (t : EnvTable n) : Prop where
  /-- A handle is refused if it names nobody, and an environment if it cannot run. -/
  error_iff : ∀ e, (switchTo id t).outcome = .error e ↔
    (e = .badHandle id ∧ ∀ i, ¬ t.Names id i) ∨
      ∃ i, t.Names id i ∧ ¬ t.CanRun i ∧ e = .notRunnable t[i].id t[i].status
  stop_iff : ∀ how, (switchTo id t).outcome = .stop how ↔
    how = .panic .destroyingRunning ∧ ∃ i, t.Names id i ∧ t.CanRun i ∧ t.FromDying i
  stop_text : ∀ p, (switchTo id t).outcome = .stop (.panic p) →
    p.message = "not implemented: destroying a running environment"
  ok_iff : ∀ tf, (switchTo id t).outcome = .ok tf ↔
    ∃ i, t.Names id i ∧ t.CanRun i ∧ ¬ t.FromDying i ∧ tf = t[i].tf
  unchanged : (∀ tf, (switchTo id t).outcome ≠ .ok tf) → (switchTo id t).state = t
  given : ∀ tf, (switchTo id t).outcome = .ok tf →
    ∃ i, t.Names id i ∧ tf = t[i].tf ∧ GivenTo t i (switchTo id t).state

/-! ### Handles and what they name -/

theorem isNone_eq_false_iff : id.isNone = false ↔ id ≠ .none := by
  rw [EnvId.isNone, beq_eq_false_iff_ne, not_iff_not]
  cases id
  simp [EnvId.none]

theorem Sound.handled (h : Sound t) : Handled t := fun _ hi =>
  ⟨isNone_eq_false_iff.1 (EnvId.isNone_of_pos (h.raw_pos hi)), h.slot_id hi⟩

/-- An environment that is found, with or without a check, is live. -/
theorem live_of_resolve {check : Bool} (h : t.resolve id check = .ok (some i)) : t[i].status ≠ .free := by
  unfold resolve at h
  split at h
  · exact live_of_running? (Except.ok.inj h)
  · split at h
    · simp only at h
      split at h
      · cases h
      · rename_i hfound
        split at h
        · cases h
        · cases h
          exact (not_or.1 hfound).1
    · cases h

/-- A change of one slot that keeps its handle and leaves it live, or free. -/
theorem Sound.modify (h : Sound t) (i : Fin n) (f : Environment → Environment)
    (hid : (f t[i]).id = t[i].id) (hfree : (f t[i]).status = .free ↔ t[i].status = .free) :
    Sound (t.modify i f) := by
  have hslots : ∀ j : Fin n, (t.modify i f)[j].id = t[j].id ∧
      ((t.modify i f)[j].status = .free ↔ t[j].status = .free) := by
    intro j
    by_cases hj : j = i
    · subst hj
      rw [slots_modify_self]
      exact ⟨hid, hfree⟩
    · rw [slots_modify_other t f hj]
      exact ⟨rfl, Iff.rfl⟩
  exact {
    toLinked := h.toLinked.congr rfl rfl fun j => (hslots j).2
    capacity := h.capacity
    room := h.room
    numbered := fun j => by
      obtain ⟨k, hk, hzero⟩ := h.numbered j
      exact ⟨k, (hslots j).1.trans hk, fun h0 => (hslots j).2.2 (hzero h0)⟩ }

/-- Whoever looks an environment up may give it any state that a live one can have. -/
theorem Sound.setStatus (h : Sound t) {s : Status} (hs : s ≠ .free) (id : EnvId) (check : Bool) :
    Sound (getModify id check (fun env => { env with status := s }) t).state := by
  rcases hfound : t.resolve id check with e | none | i
  · simp only [getModify, hfound]
    exact h
  · simp only [getModify, hfound]
    exact h
  · rw [getModify_of_ok hfound]
    have hlive := iff_of_false hs (live_of_resolve hfound)
    exact h.modify i (fun env => { env with status := s }) rfl hlive

theorem Handled.resolveEnv_eq_ok_iff (h : Handled t) : t.resolveEnv id = .ok i ↔ t.Names id i := by
  rw [EnvTable.resolveEnv_eq_ok_iff, Names]
  split
  · rename_i hnone
    rw [hnone, resolve_of_isNone rfl, Except.ok.injEq, running?_eq_some_iff]
  · rename_i hsome
    constructor
    · intro hfound
      rcases resolve_eq_some hfound with ⟨hid, -⟩ | ⟨-, -, hlive, hid⟩
      · exact absurd hid (by rw [isNone_eq_false_iff.2 hsome]; exact Bool.false_ne_true)
      · exact ⟨hlive, hid⟩
    · rintro ⟨hlive, hid⟩
      exact resolve_of_live (isNone_eq_false_iff.2 hsome) (hid ▸ (h i hlive).2) hlive hid

/-- A handle names one environment at most. -/
theorem Handled.names_unique (h : Handled t) (hi : t.Names id i) (hj : t.Names id j) : i = j := by
  have heq := (h.resolveEnv_eq_ok_iff.2 hi).symm.trans (h.resolveEnv_eq_ok_iff.2 hj)
  exact Except.ok.inj heq

theorem mayRun_iff : t.mayRun i = true ↔ t.CanRun i := by
  rw [mayRun, CanRun]
  cases t[i].status <;> simp

theorem fromDying_iff : (∃ p, t.previous? i = some p ∧ t[p].status = .dying) ↔ t.FromDying i := by
  simp only [FromDying, previous?_eq_some_iff, and_assoc]

/-! ### The four ends of a switch -/

theorem givenTo_handOver (t : EnvTable n) (i : Fin n) : GivenTo t i (t.handOver i) where
  current_eq := rfl
  target_eq := t.slots_handOver_self
  runs_eq := by
    rw [slots_handOver_self, UInt32.toNat_add]
    rfl
  previous_eq p hp hcurrent hrun := by
    rw [slots_handOver_other t hp, if_pos (t.running?_eq_some_iff.2 ⟨hcurrent, hrun⟩)]
  others_eq j hj hidle := by
    rw [slots_handOver_other t hj, if_neg (mt t.running?_eq_some_iff.1 hidle)]
  links_eq := by
    rw [handOver, demote_eq]
    rfl
  freeHead_eq := t.freeHead_handOver i
  config_eq := t.config_handOver i

/-- How a switch to the environment in slot `i` ends, and in which table. -/
theorem Handled.switchTo_cases (h : Handled t) (hi : t.Names id i) :
    ¬ t.CanRun i ∧ switchTo id t = Action.fail (.notRunnable t[i].id t[i].status) t ∨
      t.CanRun i ∧ t.FromDying i ∧ switchTo id t = Action.panic .destroyingRunning t ∨
      t.CanRun i ∧ ¬ t.FromDying i ∧
        switchTo id t = { outcome := .ok t[i].tf, state := t.handOver i } := by
  have hid := h.resolveEnv_eq_ok_iff.2 hi
  by_cases hready : t.CanRun i
  · have hswitch := switchTo_of_mayRun hid (mayRun_iff.2 hready)
    by_cases hdying : t.FromDying i
    · rw [if_pos (fromDying_iff.2 hdying)] at hswitch
      exact .inr (.inl ⟨hready, hdying, hswitch⟩)
    · rw [if_neg (mt fromDying_iff.1 hdying)] at hswitch
      exact .inr (.inr ⟨hready, hdying, hswitch⟩)
  · have hwaits : t.mayRun i = false := Bool.eq_false_iff.2 (mt mayRun_iff.1 hready)
    exact .inl ⟨hready, switchTo_of_not_mayRun hid hwaits⟩

theorem Handled.switchTo_of_unnamed (h : Handled t) (hid : ∀ i, ¬ t.Names id i) :
    switchTo id t = Action.fail (.badHandle id) t := by
  cases hfound : t.resolveEnv id with
  | error e => rw [switchTo_of_error hfound, resolveEnv_eq_error hfound]
  | ok i => exact absurd (h.resolveEnv_eq_ok_iff.1 hfound) (hid i)

/-- In every table whose environments have handles of their own slots, a switch is refused, stops the kernel
or succeeds exactly as the states of the named and of the current slot say. Only if it succeeds it changes
the table, and then nothing but who has the processor and the turns of that environment. -/
theorem switchTo_exact (h : Handled t) (id : EnvId) : Switches id t := by
  by_cases hid : ∃ i, t.Names id i
  · obtain ⟨i, hi⟩ := hid
    have hself : ∀ P : Fin n → Prop, (∃ j, t.Names id j ∧ P j) ↔ P i := fun P =>
      ⟨fun ⟨j, hj, hP⟩ => h.names_unique hi hj ▸ hP, fun hP => ⟨i, hi, hP⟩⟩
    have hsome : ¬ ∀ j, ¬ t.Names id j := fun hno => hno i hi
    have htext : Panic.destroyingRunning.message = "not implemented: destroying a running environment" := rfl
    rcases h.switchTo_cases hi with ⟨hready, heq⟩ | ⟨hready, hdying, heq⟩ | ⟨hready, hdying, heq⟩
    · constructor <;> simp [heq, hself, hsome, hready, Action.fail, eq_comm]
    · constructor <;> simp [heq, hself, hsome, hready, hdying, htext, Action.panic, Action.halt, eq_comm]
    · have hgiven := t.givenTo_handOver i
      constructor <;> simp [heq, hself, hsome, hready, hdying, hgiven, eq_comm]
  · have hnobody := not_exists.1 hid
    constructor <;> simp [h.switchTo_of_unnamed hnobody, hnobody, Action.fail, eq_comm]

/-- The first environment runs while it is being destroyed: a switch to the second stops the kernel. -/
theorem switchTo_exact_dying : ∃ t : EnvTable 2, new 2 (.userSpace ⟨8, 16⟩ ⟨27, 35⟩) = .ok t ∧
    let u := (getModify ⟨0x1000⟩ false (fun env => { env with status := .dying })
      (t.run [.alloc .none .user, .alloc .none .user, .switchTo ⟨0x1000⟩])).state
    Handled u ∧ (switchTo ⟨0x1001⟩ u).outcome = .stop (.panic .destroyingRunning) ∧
      (switchTo ⟨0x1001⟩ u).state = u := by
  obtain ⟨t, h⟩ : ∃ t : EnvTable 2, new 2 (.userSpace ⟨8, 16⟩ ⟨27, 35⟩) = .ok t := ⟨_, rfl⟩
  have hsound := ((fresh_of_new h).sound.run
    [.alloc .none .user, .alloc .none .user, .switchTo ⟨0x1000⟩]).setStatus
      (show Status.dying ≠ .free by decide) ⟨0x1000⟩ false
  have hswitches := switchTo_exact hsound.handled ⟨0x1001⟩
  have hstop := (hswitches.stop_iff (.panic .destroyingRunning)).2 ⟨rfl, 1, by cases h; decide⟩
  refine ⟨t, h, hsound.handled, hstop, hswitches.unchanged fun tf hok => ?_⟩
  rw [hstop] at hok
  cases hok

end EnvKernel.Env.EnvTable
