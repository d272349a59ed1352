import EnvKernel.Proofs.Table.Rollback

/-!
Operations that return. `returns_run` is the main statement: if a stack fits below the address where it
ends, then in every table that can come about taking a slot and looking up a stack never stop the kernel,
and creating an environment stops it only as memory itself does. A fresh table checks its stacks only
where they share memory: `Sound.create_of_unbounded` says what comes of a stack that is larger than the
address where it ends. The kernel stops after the slot was taken, and the slot stays with an environment
that can be run and has no program.
-/

namespace EnvKernel.Env

open Memory (AddressSpace)

/-- A stack that environments do not share is not larger than the address where it ends. -/
def Stacks.Bounded : Stacks → Prop
  | .shared _ _ => True
  | .separate top size => size.toNat ≤ top.toNat

instance (layout : Stacks) : Decidable layout.Bounded := by
  cases layout <;> rw [Stacks.Bounded] <;> infer_instance

namespace EnvTable

variable {n : Nat} {t : EnvTable n} {i : Fin n} {id : EnvId}

/-- Every slot has a stack, and that begins at an address. -/
theorem Sound.exists_stack (h : Sound t) (hbounded : t.config.layout.Bounded) (i : Fin n) :
    ∃ bottom top, stackTop t.config.layout i.val = .ok top ∧
      Word.sub? top t.config.layout.size = some bottom ∧
      top.toNat = bottom.toNat + t.config.layout.size.toNat := by
  have hslot := h.slot_lt i
  obtain ⟨top, htop, hle⟩ : ∃ top, stackTop t.config.layout i.val = .ok top ∧
      t.config.layout.size.toNat ≤ top.toNat := by
    cases hlayout : t.config.layout with
    | separate top size =>
      rw [hlayout] at hbounded
      exact ⟨top, rfl, hbounded⟩
    | shared top size =>
      have hroom := h.shared_room hlayout i
      obtain ⟨rsp, hrsp, hvalue⟩ :=
        stackTop_shared (show i.val < 2 ^ 64 by omega) (Nat.le_of_add_right_le hroom)
      refine ⟨rsp, hrsp, ?_⟩
      rw [Stacks.size]
      omega
  have hsub : Word.sub? top t.config.layout.size = some (top - t.config.layout.size) := by
    rw [Word.sub?, if_pos hle]
  refine ⟨_, top, htop, hsub, ?_⟩
  have hvalue := Word.toNat_sub? hsub
  omega

/-- Operations on table `t` return. -/
structure Returns (t : EnvTable n) : Prop where
  alloc : ∀ parent kind how, (alloc parent kind t).outcome ≠ .stop how
  stack : ∀ id i, t.resolveEnv id = .ok i → ∃ region : Memory.Range,
    stackRegion id t = { outcome := .ok region, state := t } ∧
      region.stop.toNat = region.start.toNat + t.config.layout.size.toNat
  /-- A creation that does not return an environment leaves none either, or memory stopped the kernel. -/
  create : ∀ {σ : Type} [AddressSpace σ] (space : σ) (binder : Binder) (binary : Bytes) (kind : Kind),
    let made := create binder binary kind ⟨t, space⟩
    (∃ id, made.outcome = .ok id) ∨
      (∃ e, made.outcome = .error e ∧ made.state.envs.live = t.live) ∨
      ∃ how, made.outcome = .stop how ∧ MemoryStops σ how

theorem Sound.alloc_ne_stop (h : Sound t) (parent : EnvId) (kind : Kind) (how : Stop) :
    (EnvTable.alloc parent kind t).outcome ≠ .stop how := by
  cases hhead : t.freeHead with
  | none =>
    rw [alloc_of_empty hhead]
    nofun
  | some i =>
    obtain ⟨top, htop⟩ := h.exists_stackTop i
    rw [alloc_of_head hhead htop]
    nofun

/-- Preparing an environment in a slot that was just handed out is stopped only by memory. -/
theorem Sound.memoryStops {σ : Type} [AddressSpace σ] (h : Sound t)
    (hbounded : t.config.layout.Bounded) {space : σ} {binder : Binder} {binary : Bytes} {kind : Kind}
    {how : Stop} (hstop : (Env.create binder binary kind ⟨t, space⟩).outcome = .stop how) :
    MemoryStops σ how := by
  cases hhead : t.freeHead with
  | none =>
    rw [create_of_empty binder hhead] at hstop
    cases hstop
  | some i =>
    obtain ⟨bottom, top, htop, hbottom, -⟩ := h.exists_stack hbounded i
    have hid := h.resolve_take hhead htop .none kind
    have hregion := stackRegion_of_some (resolveEnv_eq_ok_iff.2 hid) htop hbottom
    have hprepare := outcome_prepare binder binary hid (congrArg Effect.outcome hregion) space
    rw [h.create_eq binder hhead htop] at hstop
    split at hstop
    · cases hstop
    · cases hstop
    · rename_i hend
      cases hstop
      rw [hend] at hprepare
      exact stopsOnly_furnish binder binary _ _ space how hprepare.symm

theorem Sound.returns (h : Sound t) (hbounded : t.config.layout.Bounded) : Returns t where
  alloc := h.alloc_ne_stop
  stack id i hid := by
    obtain ⟨bottom, top, htop, hbottom, hsize⟩ := h.exists_stack hbounded i
    exact ⟨_, stackRegion_of_some hid htop hbottom, hsize⟩
  create space binder binary kind := by
    intro made
    rcases hend : made.outcome with id | e | how
    · exact .inl ⟨id, rfl⟩
    · exact .inr (.inl ⟨e, rfl, (h.undone hend).live_eq⟩)
    · exact .inr (.inr ⟨how, rfl, h.memoryStops hbounded hend⟩)

/-- Where a stack is larger than the address where it ends, a creation stops the kernel with the slot
taken. -/
theorem Sound.create_of_unbounded {σ : Type} [AddressSpace σ] (h : Sound t)
    (hbounded : ¬ t.config.layout.Bounded) (hhead : t.freeHead = some i) (space : σ) (binder : Binder)
    (binary : Bytes) (kind : Kind) : ∃ top,
      create binder binary kind ⟨t, space⟩ = ⟨.stop (.panic (.overflow .subtract)),
        ⟨t.take i (t.newcomer i .none kind top), space⟩, []⟩ := by
  obtain ⟨top, htop⟩ := h.exists_stackTop i
  have hid := resolveEnv_eq_ok_iff.2 (h.resolve_take hhead htop .none kind)
  have hbottom : Word.sub? top t.config.layout.size = none := by
    rw [Word.sub?_eq_none_iff]
    cases hlayout : t.config.layout with
    | shared => exact absurd (by rw [hlayout]; trivial) hbounded
    | separate last size =>
      rw [hlayout] at hbounded htop
      cases htop
      exact Nat.not_le.1 hbounded
  have hregion := onEnvs_eq (stackRegion_of_none hid htop hbottom) space
  refine ⟨top, ?_⟩
  rw [h.create_eq binder hhead htop, prepare, Action.bind_of_stop hregion]

/-- After any run of a fresh table whose stacks fit below the addresses where they end, operations return. -/
theorem returns_run {config : Config} (h : new n config = .ok t) (hbounded : config.layout.Bounded)
    (ops : List Op) : Returns (t.run ops) := by
  have hfresh := fresh_of_new h
  refine (hfresh.sound.run ops).returns ?_
  rwa [hfresh.sound.config_run, hfresh.config_eq]

/-- Stacks that begin at address zero, after a creation that failed and with an environment that runs. -/
theorem returns_run_lowest : ∃ t : EnvTable 2,
    new 2 { layout := .separate 0x2000 0x2000, kernel := ⟨8, 16⟩, user := ⟨27, 35⟩ } = .ok t ∧
      Stacks.Bounded (.separate 0x2000 0x2000) ∧
      Returns (t.run [.create ({} : Memory.SparseSpace) {} .empty .user, .alloc .none .user,
        .switchTo ⟨0x2000⟩]) := by
  obtain ⟨t, h⟩ : ∃ t : EnvTable 2,
    new 2 { layout := .separate 0x2000 0x2000, kernel := ⟨8, 16⟩, user := ⟨27, 35⟩ } = .ok t := ⟨_, rfl⟩
  exact ⟨t, h, by decide, returns_run h (by decide) _⟩

/-- Four stacks of two pages that end at the second page are no reason to refuse a table. The first creation
stops the kernel and leaves an environment behind that can be run and was never loaded. -/
theorem stranded_small_area : ∃ t : EnvTable 4,
    new 4 { layout := .separate 0x1000 0x2000, kernel := ⟨8, 16⟩, user := ⟨27, 35⟩ } = .ok t ∧
      ∃ made, create {} .empty .user (⟨t, {}⟩ : World 4 Memory.SparseSpace) = made ∧
        made.outcome = .stop (.panic (.overflow .subtract)) ∧
        made.state.envs.live.map (·.status) = [.runnable] ∧
        made.state.envs.live.map (·.binary) = [none] ∧
        (stackRegion ⟨0x1000⟩ made.state.envs).outcome = .stop (.panic (.overflow .subtract)) := by
  refine ⟨_, rfl, _, rfl, ?_⟩
  decide

end EnvTable

end EnvKernel.Env
