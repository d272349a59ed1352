import EnvKernel.Proofs.Table.Create

/-!
Runs: any operations, one after the other, on one table. Each creation brings memory of its own. What
a run means for the slots is its `history`, which `moves_run` ties to the moves of the table: what every
move preserves, every run preserves.
-/

namespace EnvKernel.Env

open Memory (AddressSpace)

/-- Something to do with a table. -/
inductive Op : Type 1 where
  | alloc (parent : EnvId) (kind : Kind)
  | free (id : EnvId)
  | switchTo (id : EnvId)
  | saveCurrent (tf : Trapframe)
  | create {σ : Type} [AddressSpace σ] (space : σ) (binder : Binder) (binary : Bytes) (kind : Kind)

namespace EnvTable

variable {n : Nat}

/-- The table after an operation, however that ended. -/
def after (t : EnvTable n) : Op → EnvTable n
  | .alloc parent kind => (alloc parent kind t).state
  | .free id => (free id t).state
  | .switchTo id => (switchTo id t).state
  | .saveCurrent tf => (saveCurrent tf t).state
  | @Op.create _ _ space binder binary kind => (create binder binary kind ⟨t, space⟩).state.envs

/-- The table after some operations. -/
def run (t : EnvTable n) (ops : List Op) : EnvTable n := ops.foldl after t

/-- The slot that is handed out by a successful `alloc`. -/
def issue (t : EnvTable n) (parent : EnvId) (kind : Kind) : List (Event n) :=
  match t.freeHead, (alloc parent kind t).outcome with
  | some i, .ok id => [.issued i id]
  | _, _ => []

/-- What an operation means for the slots, in order. An environment that could not be created had its
slot for a while. -/
def events (t : EnvTable n) : Op → List (Event n)
  | .alloc parent kind => t.issue parent kind
  | .free id =>
    match t.resolveEnv id, (free id t).outcome with
    | .ok i, .ok _ => [.freed i]
    | _, _ => []
  | .switchTo id =>
    match t.resolveEnv id, (switchTo id t).outcome with
    | .ok i, .ok _ => [.selected i]
    | _, _ => []
  | .saveCurrent _ => []
  | @Op.create _ _ space binder binary kind =>
    t.issue .none kind ++
      match t.freeHead, (create binder binary kind ⟨t, space⟩).outcome with
      | some i, .error _ => [.freed i]
      | _, _ => []

/-- What a run means for the slots, in order. -/
def history (t : EnvTable n) : List Op → List (Event n)
  | [] => []
  | op :: ops => t.events op ++ (t.after op).history ops

/-! ### Runs are made of moves -/

variable {t : EnvTable n}

theorem Sound.issue_eq (h : Sound t) (parent : EnvId) (kind : Kind) :
    t.issue parent kind = match t.freeHead with
      | some i => [.issued i (t[i].id.next i.val)]
      | none => [] := by
  cases hhead : t.freeHead with
  | none => rw [issue, hhead]
  | some i =>
    obtain ⟨rsp, hrsp⟩ := h.exists_stackTop i
    rw [issue, alloc_of_head hhead hrsp, hhead]

theorem Sound.moves_alloc (h : Sound t) (parent : EnvId) (kind : Kind) :
    Moves t (t.events (.alloc parent kind)) (t.after (.alloc parent kind)) := by
  rw [events, after, h.issue_eq]
  cases hhead : t.freeHead with
  | none =>
    rw [alloc_of_empty hhead]
    exact .refl t
  | some i =>
    obtain ⟨rsp, hrsp⟩ := h.exists_stackTop i
    rw [alloc_of_head hhead hrsp]
    exact .single (.take i parent kind hhead hrsp)

theorem moves_free (t : EnvTable n) (id : EnvId) :
    Moves t (t.events (.free id)) (t.after (.free id)) := by
  rw [events, after]
  cases hid : t.resolveEnv id with
  | error e =>
    rw [free_of_error hid]
    exact .refl t
  | ok i =>
    rw [free_of_ok hid]
    exact .single (.giveBack i (live_of_resolveEnv hid))

theorem moves_saveCurrent (t : EnvTable n) (tf : Trapframe) :
    Moves t (t.events (.saveCurrent tf)) (t.after (.saveCurrent tf)) := by
  rw [events, after]
  cases hid : t.resolveEnv .none with
  | error e =>
    rw [saveCurrent_of_error hid]
    exact .refl t
  | ok i =>
    rw [saveCurrent_of_ok hid]
    exact .single (.rewrite i tf t[i].binary (live_of_resolveEnv hid))

theorem moves_switchTo (t : EnvTable n) (id : EnvId) :
    Moves t (t.events (.switchTo id)) (t.after (.switchTo id)) := by
  rw [events, after]
  cases hid : t.resolveEnv id with
  | error e =>
    rw [switchTo_of_error hid]
    exact .refl t
  | ok i =>
    cases hready : t.mayRun i with
    | false =>
      rw [switchTo_of_not_mayRun hid hready]
      exact .refl t
    | true =>
      rw [switchTo_of_mayRun hid hready]
      by_cases hdying : ∃ p, t.previous? i = some p ∧ t[p].status = .dying
      · rw [if_pos hdying]
        exact .refl t
      · rw [if_neg hdying]
        exact .single (.handOver i hready)

/-- Creating an environment hands a slot out to it without a parent, and the slot may be given back. -/
theorem Sound.exists_moves_create {σ : Type} [AddressSpace σ] (h : Sound t) {i : Fin n}
    (hhead : t.freeHead = some i) (space : σ) (binder : Binder) (binary : Bytes) (kind : Kind) :
    ∃ rsp done, stackTop t.config.layout i.val = .ok rsp ∧ (done = [] ∨ done = [.freed i]) ∧
      t.events (.create space binder binary kind) = .issued i (t[i].id.next i.val) :: done ∧
      Moves (t.take i (t.newcomer i .none kind rsp)) done
        (t.after (.create space binder binary kind)) := by
  rw [events, after, h.issue_eq, hhead]
  obtain ⟨rsp, u, hrsp, hprepared, hend⟩ := h.create_cases binder hhead binary kind space
  have hlive := t.live_take i .none kind rsp
  have hmade := hprepared.moves hlive
  refine ⟨rsp, ?_⟩
  rcases hend with ⟨hok, henvs⟩ | ⟨how, hstop, henvs⟩ | ⟨e, herror, henvs⟩
  · simp only [hok, henvs]
    exact ⟨[], hrsp, .inl rfl, rfl, hmade⟩
  · simp only [hstop, henvs]
    exact ⟨[], hrsp, .inl rfl, rfl, hmade⟩
  · simp only [herror, henvs]
    exact ⟨[.freed i], hrsp, .inr rfl, rfl, hmade.tail (.giveBack i (hprepared.slots.2 ▸ hlive))⟩

theorem Sound.moves_create {σ : Type} [AddressSpace σ] (h : Sound t) (space : σ) (binder : Binder)
    (binary : Bytes) (kind : Kind) :
    Moves t (t.events (.create space binder binary kind))
      (t.after (.create space binder binary kind)) := by
  cases hhead : t.freeHead with
  | none =>
    rw [events, after, h.issue_eq, hhead, create_of_empty binder hhead]
    exact .refl t
  | some i =>
    obtain ⟨rsp, done, hrsp, -, hevents, hmoves⟩ := h.exists_moves_create hhead space binder binary kind
    rw [hevents]
    exact (Moves.single (.take i .none kind hhead hrsp)).trans hmoves

/-- Every operation on a sound table is made of moves. -/
theorem Sound.moves_after (h : Sound t) (op : Op) : Moves t (t.events op) (t.after op) := by
  cases op with
  | alloc parent kind => exact h.moves_alloc parent kind
  | free id => exact t.moves_free id
  | switchTo id => exact t.moves_switchTo id
  | saveCurrent tf => exact t.moves_saveCurrent tf
  | create space binder binary kind => exact h.moves_create space binder binary kind

theorem Sound.moves_run (h : Sound t) (ops : List Op) : Moves t (t.history ops) (t.run ops) := by
  induction ops generalizing t with
  | nil => exact .refl t
  | cons op ops ih =>
    have hstep := h.moves_after op
    exact hstep.trans (ih (h.moves hstep))

theorem Sound.run (h : Sound t) (ops : List Op) : Sound (t.run ops) := h.moves (h.moves_run ops)

theorem Sound.config_run (h : Sound t) (ops : List Op) : (t.run ops).config = t.config :=
  (h.moves_run ops).preserves (P := fun u => u.config = t.config) rfl
    fun heq hm => (config_move hm).trans heq

end EnvTable

end EnvKernel.Env
