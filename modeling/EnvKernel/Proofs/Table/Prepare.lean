import EnvKernel.Proofs.Table.Create

/-!
Preparing an environment seen from its memory. Once the stack of an environment is known, preparing it
is three steps on memory: the stack is mapped, the image is loaded and its pointers are bound. `furnish` is
these steps alone; an environment is prepared exactly as well as they go. So an error is that of the step
that failed, and nothing stops the kernel there but memory itself.
-/

namespace EnvKernel.Env

open Memory (AddressSpace)
open EnvKernel.Action (StopsOnly)

variable {n : Nat} {σ : Type} [AddressSpace σ] {binder : Binder} {binary : Bytes} {env : Environment}
  {stack : Memory.Range} {s : σ}

/-- What preparing `env`, which has the given stack, does to memory. -/
def furnish (binder : Binder) (binary : Bytes) (env : Environment) (stack : Memory.Range) :
    Action σ EnvError Unit := do
  Action.mapError (.load ∘ .memory) (AddressSpace.map stack)
  let _ ← Action.mapError .load (Program.load env binary)
  let _ ← Action.mapError .bind (Program.bind binder binary)

/-- Which step of preparing `env` in memory `s` failed, and with which error. -/
inductive FailedStep (binder : Binder) (binary : Bytes) (env : Environment) (stack : Memory.Range)
    (s : σ) : EnvError → Prop where
  | map {e : Memory.MemoryError} (failed : (AddressSpace.map stack s).outcome = .error e) :
      FailedStep binder binary env stack s (.load (.memory e))
  | load {s' : σ} {e : LoadError} (mapped : (AddressSpace.map stack s).outcome = .ok ())
      (state_eq : s' = (AddressSpace.map stack s).state)
      (failed : (Program.load env binary s').outcome = .error e) :
      FailedStep binder binary env stack s (.load e)
  | bind {s' s'' : σ} {loaded : Environment} {e : BindError}
      (mapped : (AddressSpace.map stack s).outcome = .ok ())
      (state_eq : s' = (AddressSpace.map stack s).state)
      (loaded : (Program.load env binary s').outcome = .ok loaded)
      (loaded_eq : s'' = (Program.load env binary s').state)
      (failed : (Program.bind binder binary s'').outcome = .error e) :
      FailedStep binder binary env stack s (.bind e)

/-- An error is that of the step that failed. -/
theorem failedStep_of_furnish {e : EnvError}
    (h : (furnish binder binary env stack s).outcome = .error e) :
    FailedStep binder binary env stack s e := by
  rcases Action.bind_eq_error_iff.1 h with hmap | ⟨_, hmap, h⟩
  · obtain ⟨e, he, rfl⟩ := Action.mapError_eq_error_iff.1 hmap
    exact .map he
  rw [Action.mapError_eq_ok_iff] at hmap
  rw [Action.state_mapError] at h
  rcases Action.bind_eq_error_iff.1 h with hload | ⟨loaded, hload, h⟩
  · obtain ⟨e, he, rfl⟩ := Action.mapError_eq_error_iff.1 hload
    exact .load hmap rfl he
  rw [Action.mapError_eq_ok_iff] at hload
  rw [Action.state_mapError] at h
  rcases Action.bind_eq_error_iff.1 h with hbind | ⟨_, -, h⟩
  · obtain ⟨e, he, rfl⟩ := Action.mapError_eq_error_iff.1 hbind
    exact .bind hmap rfl hload rfl he
  · cases h

/-- A failed step is never told as a bad handle. -/
theorem FailedStep.ne_badHandle {e : EnvError} (h : FailedStep binder binary env stack s e)
    (id : EnvId) : e ≠ .badHandle id := by
  cases h <;> nofun

/-! ### What can stop the kernel -/

/-- Memory itself stops the kernel in the given way. -/
def MemoryStops (σ : Type) [AddressSpace σ] (how : Stop) : Prop :=
  ∃ s : σ, (∃ range, (AddressSpace.map range s).outcome = .stop how) ∨
    ∃ addr bytes, (AddressSpace.write addr bytes s).outcome = .stop how

/-- A sparse address space never stops the kernel. -/
theorem not_memoryStops_sparse (how : Stop) : ¬ MemoryStops Memory.SparseSpace how := by
  have hresult : ∀ (f : Memory.SparseSpace → Except Memory.MemoryError Unit × Memory.SparseSpace) s,
      (Action.ofResult f s).outcome ≠ .stop how := by
    intro f s
    rw [Action.ofResult]
    split <;> nofun
  rintro ⟨s, ⟨range, h⟩ | ⟨addr, bytes, h⟩⟩ <;> exact hresult _ _ h

theorem stopsOnly_map (range : Memory.Range) :
    StopsOnly (MemoryStops σ) (AddressSpace.map range : Action σ _ Unit) :=
  fun s _ h => ⟨s, .inl ⟨range, h⟩⟩

theorem stopsOnly_write (addr : UInt64) (bytes : Array UInt8) :
    StopsOnly (MemoryStops σ) (AddressSpace.write addr bytes : Action σ _ Unit) :=
  fun s _ h => ⟨s, .inr ⟨addr, bytes, h⟩⟩

theorem stopsOnly_placeAll (placements : List Program.Placement) :
    StopsOnly (MemoryStops σ) (Program.placeAll placements : Action σ _ Unit) := by
  induction placements with
  | nil => exact Action.stopsOnly_pure ()
  | cons p rest ih =>
    refine StopsOnly.bind ?_ fun _ => ih
    refine (stopsOnly_map p.region).bind fun _ => ?_
    split
    · exact Action.stopsOnly_pure ()
    · exact stopsOnly_write _ _

theorem stopsOnly_load (env : Environment) (binary : Bytes) :
    StopsOnly (MemoryStops σ) (Program.load env binary : Action σ _ Environment) := by
  rw [Program.load]
  split
  · exact Action.stopsOnly_fail _
  · exact ((stopsOnly_placeAll _).mapError _).bind fun _ => Action.stopsOnly_pure _

theorem stopsOnly_bindPointers (binder : Binder) (names : Bytes) (symbols : List Elf.Symbol)
    (report : Program.Report) :
    StopsOnly (MemoryStops σ) (Program.bindPointers binder names report symbols : Action σ _ _) := by
  induction symbols generalizing report with
  | nil => exact Action.stopsOnly_pure report
  | cons symbol rest ih =>
    refine StopsOnly.bind ?_ ih
    refine (stopsOnly_write _ _).bind fun _ => ?_
    split
    all_goals exact (Action.stopsOnly_say _).bind fun _ => Action.stopsOnly_pure _

theorem stopsOnly_bind (binder : Binder) (binary : Bytes) :
    StopsOnly (MemoryStops σ) (Program.bind binder binary : Action σ _ Program.Report) := by
  rw [Program.bind]
  split
  · exact Action.stopsOnly_fail _
  · exact (stopsOnly_bindPointers binder _ _ _).mapError _

/-- Whatever the image, nothing but memory stops the kernel while an environment is prepared. -/
theorem stopsOnly_furnish (binder : Binder) (binary : Bytes) (env : Environment) (stack : Memory.Range) :
    StopsOnly (MemoryStops σ) (furnish binder binary env stack : Action σ _ Unit) := by
  refine StopsOnly.bind ((stopsOnly_map stack).mapError _) fun _ => ?_
  refine StopsOnly.bind ((stopsOnly_load env binary).mapError _) fun _ => ?_
  exact StopsOnly.bind ((stopsOnly_bind binder binary).mapError _) fun _ => Action.stopsOnly_pure _

/-! ### Preparing is furnishing -/

variable {t : EnvTable n} {id : EnvId} {i : Fin n}

/-- With a stack, an environment is prepared as its memory is furnished. -/
theorem prepare_agrees (binder : Binder) (binary : Bytes) (hid : t.resolve id false = .ok (some i))
    (hstack : (EnvTable.stackRegion id t).outcome = .ok stack) (s : σ) :
    (prepare binder binary id ⟨t, s⟩).Agrees (fun w s => w.space = s)
      (furnish binder binary t[i] stack s) := by
  have hget : t.get id false = .ok (some t[i]) := by rw [EnvTable.get, hid]; rfl
  have hset : ∀ f, EnvTable.getModify id false f t = _ := EnvTable.getModify_of_ok hid
  rw [prepare]
  refine Action.bind_agrees_of_ok hstack ?_
  rw [state_onEnvs, EnvTable.state_stackRegion]
  refine Action.bind_agrees (Action.mapError_agrees _ ⟨rfl, rfl⟩) fun _ _ => ?_
  rw [Action.state_mapError, state_onSpace, Action.state_mapError, Action.bind_state_apply, hget,
    Action.bind_ofExcept_apply]
  refine Action.bind_agrees (Action.mapError_agrees _ ⟨rfl, rfl⟩) fun loaded _ => ?_
  rw [Action.state_mapError, state_onSpace, Action.state_mapError]
  refine Action.bind_agrees_of_ok ((outcome_onEnvs _ _).trans (congrArg Effect.outcome (hset _))) ?_
  refine Action.bind_agrees (Action.mapError_agrees _ ⟨rfl, rfl⟩) fun report _ => ?_
  rw [Action.state_mapError, Action.state_mapError]
  exact ⟨rfl, rfl⟩

/-- With a stack, an environment is prepared as well as its memory is. -/
theorem outcome_prepare (binder : Binder) (binary : Bytes) (hid : t.resolve id false = .ok (some i))
    (hstack : (EnvTable.stackRegion id t).outcome = .ok stack) (s : σ) :
    (prepare binder binary id ⟨t, s⟩).outcome = (furnish binder binary t[i] stack s).outcome :=
  (prepare_agrees binder binary hid hstack s).outcome_eq

/-- Without a stack, the kernel stops before memory is touched. -/
theorem outcome_prepare_of_stop {how : Stop} (h : (EnvTable.stackRegion id t).outcome = .stop how)
    (s : σ) : (prepare binder binary id ⟨t, s⟩).outcome = .stop how := by
  rw [prepare, Action.outcome_bind, outcome_onEnvs, h]

end EnvKernel.Env
