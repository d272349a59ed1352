import EnvKernel.Proofs.Table.History

/-!
Who has the processor over whole runs. `oneRunning_run` is the main statement: at most one environment is
running, it is the one in the current slot, a switch never finds an environment that is being destroyed,
nobody is running from the moment the running environment is given up until the next switch, and every
environment counts its own turns. The current slot is not cleared when its environment is given up, so
that it may be free or have another occupant; what is preserved is only that such a slot is not running.
-/

namespace EnvKernel.Env

variable {n : Nat}

/-- The turns of slot `i` after what happened to a slot. -/
def Event.count (i : Fin n) (k : Nat) : Event n → Nat
  | .issued j _ => if j = i then 0 else k
  | .freed _ => k
  | .selected j => if j = i then k + 1 else k

/-- How often slot `i` was given the processor since it was handed out last. -/
def turns (i : Fin n) (past : List (Event n)) : Nat := past.foldl (Event.count i) 0

theorem turns_append (i : Fin n) (past done : List (Event n)) :
    turns i (past ++ done) = done.foldl (Event.count i) (turns i past) :=
  List.foldl_append

/-- What happens to other slots takes no turn from a slot and gives it none. -/
theorem foldl_count_of_others {i : Fin n} {done : List (Event n)} (h : ∀ e ∈ done, e.slot ≠ i)
    (k : Nat) : done.foldl (Event.count i) k = k := by
  induction done generalizing k with
  | nil => rfl
  | cons e done ih =>
    have hcount : Event.count i k e = k := by
      have he := h e List.mem_cons_self
      cases e with
      | issued | selected => exact if_neg he
      | freed => rfl
    rw [List.foldl_cons, hcount]
    exact ih (fun e he => h e (List.mem_cons_of_mem _ he)) k

namespace EnvTable

variable {t u : EnvTable n} {past done : List (Event n)} {id : EnvId} {i : Fin n}

/-! ### Nobody is running -/

theorem running?_eq_none_iff :
    t.running? = none ↔ ∀ i, t.current = some i → t[i].status ≠ .running := by
  rw [Option.eq_none_iff_forall_ne_some]
  simp only [Ne, running?_eq_some_iff, not_and]

theorem currentId_of_none (h : t.running? = none) : t.currentId = .none := by
  rw [currentId, current?, h]
  rfl

theorem currentId_of_running (h : t.running? = some i) : t.currentId = t[i].id := by
  rw [currentId, current?, h]
  rfl

/-- Only a switch makes an environment run. -/
theorem running?_move (h : t.running? = none) (hm : Move t done u) (hdone : ∀ i, .selected i ∉ done) :
    u.running? = none := by
  rw [running?_eq_none_iff] at *
  intro j hj
  cases hm with
  | take i parent kind head top =>
    by_cases hji : j = i
    · rw [hji, slots_take_self]
      nofun
    · rw [slots_take_other t _ hji]
      exact h j hj
  | giveBack i live =>
    by_cases hji : j = i
    · subst hji
      rw [slots_giveBack_self]
      nofun
    · rw [slots_giveBack_other t hji]
      exact h j hj
  | rewrite i tf binary live =>
    rw [(slots_rewrite t i j tf binary).2.1]
    exact h j hj
  | handOver i ready => exact absurd (List.mem_singleton_self _) (hdone i)

theorem running?_moves (h : t.running? = none) (hm : Moves t done u)
    (hdone : ∀ i, .selected i ∉ done) : u.running? = none := by
  induction hm with
  | refl => exact h
  | tail _ hlast ih =>
    have hbefore := ih fun i hi => hdone i (List.mem_append_left _ hi)
    exact running?_move hbefore hlast fun i hi => hdone i (List.mem_append_right _ hi)

/-- Nobody runs as long as nobody is selected. -/
theorem Sound.currentId_run (h : Sound t) (hnone : t.running? = none) {ops : List Op}
    (hops : ∀ i, .selected i ∉ t.history ops) : (t.run ops).currentId = .none :=
  currentId_of_none (running?_moves hnone (h.moves_run ops) hops)

theorem Scheduled.running?_giveBack (h : Scheduled t) (hi : t[i].status = .running) :
    (t.giveBack i).running? = none := by
  rw [running?_eq_none_iff]
  intro j hj
  rw [show (t.giveBack i).current = t.current from rfl, h.current_of_running i hi] at hj
  cases hj
  rw [slots_giveBack_self]
  nofun

/-! ### Turns -/

/-- Every live environment knows the number of its turns, as far as its counter goes. -/
def Counted (past : List (Event n)) (t : EnvTable n) : Prop :=
  ∀ i : Fin n, t[i].status ≠ .free → t[i].runs.toNat = turns i past % 2 ^ 32

theorem Counted.move (h : Counted past t) (hm : Move t done u) : Counted (past ++ done) u := by
  intro j hlive
  rw [turns_append]
  cases hm.fate j with
  | kept env_eq others =>
    rw [env_eq] at hlive ⊢
    rw [foldl_count_of_others others]
    exact h j hlive
  | demoted env_eq others running =>
    rw [env_eq, foldl_count_of_others others]
    exact h j (live_of_running? running)
  | taken parent kind rsp env_eq done_eq =>
    rw [env_eq, done_eq, List.foldl_cons, List.foldl_nil, Event.count, if_pos rfl]
    rfl
  | givenBack env_eq =>
    rw [env_eq] at hlive
    exact absurd rfl hlive
  | rewritten tf binary env_eq done_eq live =>
    rw [env_eq, done_eq, List.foldl_nil]
    exact h j live
  | selected env_eq done_eq ready =>
    rw [env_eq, done_eq, List.foldl_cons, List.foldl_nil, Event.count, if_pos rfl, UInt32.toNat_add,
      h j (live_of_mayRun ready)]
    exact Nat.mod_add_mod ..

theorem Fresh.counted {config : Config} (h : Fresh config t) : Counted [] t := fun i hlive => by
  rw [h.slots_eq] at hlive
  exact absurd rfl hlive

/-! ### The main statement -/

/-- Who has the processor, in a table after what happened to its slots. -/
structure OneRunning (past : List (Event n)) (t : EnvTable n) : Prop where
  unique : ∀ i j : Fin n, t[i].status = .running → t[j].status = .running → i = j
  current : ∀ i : Fin n, t[i].status = .running →
    t.current = some i ∧ t.currentId = t[i].id
  active : ∀ i : Fin n, t[i].status ≠ .free →
    t[i].status = .runnable ∨ t[i].status = .running
  /-- A switch never stops the kernel. -/
  no_stop : ∀ id how, (switchTo id t).outcome ≠ .stop how
  /-- Whoever is found by a switch is the one that runs then. -/
  selected : ∀ id i, t.resolveEnv id = .ok i → (switchTo id t).outcome = .ok t[i].tf ∧
    (switchTo id t).state.currentId = t[i].id
  /-- Once the running environment is given up, nobody runs until a switch succeeds. -/
  freed : ∀ id i, t.resolveEnv id = .ok i → t[i].status = .running →
    (free id t).outcome = .ok () ∧
      ∀ more, (∀ j, .selected j ∉ (free id t).state.history more) →
        ((free id t).state.run more).currentId = .none
  counted : ∀ i : Fin n, t[i].status ≠ .free → t[i].runs.toNat = turns i past % 2 ^ 32

theorem Scheduled.oneRunning (h : Scheduled t) (hs : Sound t) (hc : Counted past t) :
    OneRunning past t where
  unique i j hi hj := by
    have heq := (h.current_of_running i hi).symm.trans (h.current_of_running j hj)
    exact Option.some.inj heq
  current i hi := by
    have hcurrent := h.current_of_running i hi
    exact ⟨hcurrent, currentId_of_running (t.running?_eq_some_iff.2 ⟨hcurrent, hi⟩)⟩
  active i hi := (h.active i).resolve_left hi
  no_stop id how := by
    cases hid : t.resolveEnv id with
    | error e =>
      rw [switchTo_of_error hid]
      nofun
    | ok i =>
      rw [h.switchTo_eq hid]
      nofun
  selected id i hid := by
    rw [h.switchTo_eq hid]
    exact ⟨rfl, by rw [currentId_of_running (t.running?_handOver i), id_handOver]⟩
  freed id i hid hi := by
    rw [free_of_ok hid]
    refine ⟨rfl, fun more hmore => ?_⟩
    have hback : Sound (t.giveBack i) := hs.move (.giveBack i (live_of_resolveEnv hid))
    exact hback.currentId_run (h.running?_giveBack hi) hmore
  counted := hc

/-- After any run of a fresh table at most one environment is running, in the current slot, and the rest
of `OneRunning` holds as well. -/
theorem oneRunning_run {config : Config} {t : EnvTable n} (h : new n config = .ok t)
    (ops : List Op) : OneRunning (t.history ops) (t.run ops) := by
  have hfresh := fresh_of_new h
  have hscheduled := hfresh.scheduled.moves (hfresh.sound.moves_run ops)
  have hcounted : Counted (t.history ops) (t.run ops) :=
    hfresh.induct hfresh.counted (fun _ hc hm => hc.move hm) ops
  exact hscheduled.oneRunning (hfresh.sound.run ops) hcounted

/-- An environment gives itself up and its slot is handed out again: the new one does not run. -/
theorem oneRunning_run_again : ∃ t : EnvTable 2,
    new 2 (.userSpace ⟨8, 16⟩ ⟨27, 35⟩) = .ok t ∧
      ((free .none (t.run [.alloc .none .user, .switchTo ⟨0x1000⟩])).state.run
        [.alloc .none .user]).currentId = .none := by
  obtain ⟨t, h⟩ : ∃ t : EnvTable 2, new 2 (.userSpace ⟨8, 16⟩ ⟨27, 35⟩) = .ok t := ⟨_, rfl⟩
  refine ⟨t, h, ((oneRunning_run h _).freed .none 0 ?_ ?_).2 _ ?_⟩
  · cases h
    rfl
  · cases h
    rfl
  · cases h
    decide

end EnvTable

end EnvKernel.Env
