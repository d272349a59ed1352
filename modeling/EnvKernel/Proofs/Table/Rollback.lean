import EnvKernel.Proofs.Table.Prepare
import EnvKernel.Proofs.Table.Run

/-!
Creations that fail. `undone_run` is the main statement: whatever fails after a slot was taken, the
table is afterwards as it was before, but for the generation and the remains of the slot that was taken
for a while, and the error is that of the step that failed. The slot is given back through its handle;
that its environment is always found by it is why no other error can take the place of the first.
-/

namespace EnvKernel.Env

open Memory (AddressSpace)

namespace EnvTable

variable {n : Nat} {t u : EnvTable n} {i : Fin n}

/-- Table `u` is `t` again after slot `i`, the first free one, was taken for a while. -/
structure RolledBack (t : EnvTable n) (i : Fin n) (u : EnvTable n) : Prop where
  live_eq : u.live = t.live
  freeList_eq : u.freeList = t.freeList
  freeHead_eq : u.freeHead = t.freeHead
  link_eq : u.link = t.link
  current_eq : u.current = t.current
  config_eq : u.config = t.config
  others : ∀ j, j ≠ i → u[j] = t[j]
  status_eq : u[i].status = .free
  binary_eq : u[i].binary = none
  id_eq : u[i].id = t[i].id.next i.val
  generation_eq : u[i].id.generation.toInt = t[i].id.generation.toInt % EnvId.generations + 1

/-- The environments of a table are those of its slots that are not free. -/
theorem live_congr (h : ∀ j : Fin n, u[j] = t[j] ∨ u[j].status = .free ∧ t[j].status = .free) :
    u.live = t.live := by
  have hslot : ∀ j : Fin n, (u[j].status != .free) = (t[j].status != .free) := fun j => by
    rcases h j with heq | ⟨hu, ht⟩
    · rw [heq]
    · rw [hu, ht]
  rw [EnvTable.live_eq, EnvTable.live_eq, List.filter_congr fun j _ => hslot j]
  refine List.map_congr_left fun j hj => (h j).resolve_right fun hfree => ?_
  simp only [List.mem_filter, bne_iff_ne] at hj
  exact hj.2 hfree.2

/-- The handle of a slot after the next one counts one generation more, or begins with the first again. -/
theorem Sound.generation_next (h : Sound t) (i : Fin n) :
    (t[i].id.next i.val).generation.toInt = t[i].id.generation.toInt % EnvId.generations + 1 := by
  obtain ⟨k, hid, -⟩ := h.numbered i
  rw [hid]
  exact EnvId.generation_occupant_succ (h.slot_lt i) k

/-- Slot `i` is as good as before once it was handed out, perhaps loaded, and given back. -/
theorem Sound.rolledBack (h : Sound t) (hhead : t.freeHead = some i) {rsp : UInt64}
    (hrsp : stackTop t.config.layout i.val = .ok rsp) {parent : EnvId} {kind : Kind} {binary : Bytes}
    (hu : Prepared (t.take i (t.newcomer i parent kind rsp)) i binary u) :
    RolledBack t i (u.giveBack i) := by
  have hlive := t.live_take i parent kind rsp
  have hsound := (h.move (.take i parent kind hhead hrsp)).moves (hu.moves hlive)
  obtain ⟨hid, hstatus⟩ := hu.slots
  obtain ⟨hslots, hlink, hfirst, hcurrent, hconfig⟩ := hu.others
  have hothers : ∀ j, j ≠ i → (u.giveBack i)[j] = t[j] := fun j hj => by
    rw [slots_giveBack_other u hj, hslots j hj, slots_take_other t _ hj]
  have hnow : (u.giveBack i)[i].id = t[i].id.next i.val := by
    rw [slots_giveBack_self]
    exact hid.trans (by rw [slots_take_self]; rfl)
  have hfree := h.free_of_head hhead
  have hfreed : (u.giveBack i)[i].status = .free := by rw [slots_giveBack_self]
  exact {
    live_eq := live_congr fun j => by
      by_cases hj : j = i
      · exact .inr ⟨hj ▸ hfreed, hj ▸ hfree⟩
      · exact .inl (hothers j hj)
    freeList_eq := by
      rw [(hsound.freeList_giveBack (hstatus ▸ hlive)).1, freeList_congr hlink hfirst]
      exact (h.freeList_take hhead _).1.symm
    freeHead_eq := hhead.symm
    link_eq := funext fun j => by
      by_cases hj : j = i
      · rw [hj, link_giveBack_self, hfirst]
        rfl
      · rw [link_giveBack_other u hj, hlink, link_take_other t _ hj]
    current_eq := hcurrent
    config_eq := hconfig
    others := hothers
    status_eq := hfreed
    binary_eq := by rw [slots_giveBack_self]
    id_eq := hnow
    generation_eq := hnow ▸ h.generation_next i }

end EnvTable

open EnvTable

variable {n : Nat} {σ : Type} [AddressSpace σ]

/-- World `w` after the creation of an environment that ended with the given error: with a full table it
is the same, and otherwise the table is rolled back after the failed step. -/
inductive Undone (binder : Binder) (binary : Bytes) (kind : Kind) (w : World n σ) :
    EnvError → World n σ → Prop where
  | full (freeList_eq : w.envs.freeList = []) : Undone binder binary kind w .noFreeSlots w
  | failed {i : Fin n} {rest : List (Fin n)} {top bottom : UInt64} {made : Environment} {e : EnvError}
      {w' : World n σ} (freeList_eq : w.envs.freeList = i :: rest)
      (top_eq : stackTop w.envs.config.layout i.val = .ok top)
      (bottom_eq : Word.sub? top w.envs.config.layout.size = some bottom)
      (made_eq : made = w.envs.newcomer i .none kind top)
      (step : FailedStep binder binary made ⟨bottom, top⟩ w.space e)
      (freed : (free made.id
        (prepare binder binary made.id ⟨w.envs.take i made, w.space⟩).state.envs).outcome = .ok ())
      (rolledBack : RolledBack w.envs i w'.envs) : Undone binder binary kind w e w'

/-- Without a free slot there is a reason of its own, and otherwise that of the step that failed. -/
theorem Undone.ne_badHandle {binder : Binder} {binary : Bytes} {kind : Kind} {w w' : World n σ}
    {e : EnvError} (h : Undone binder binary kind w e w') (id : EnvId) : e ≠ .badHandle id := by
  cases h with
  | full => nofun
  | failed _ _ _ _ step => exact step.ne_badHandle id

/-- A creation that fails leaves the environments that were there. -/
theorem Undone.live_eq {binder : Binder} {binary : Bytes} {kind : Kind} {w w' : World n σ}
    {e : EnvError} (h : Undone binder binary kind w e w') : w'.envs.live = w.envs.live := by
  cases h with
  | full => rfl
  | failed _ _ _ _ _ _ rolledBack => exact rolledBack.live_eq

/-- An environment in a slot that was just handed out has a stack if preparing it ends with an error, and
that is the error of a step. -/
theorem EnvTable.Sound.failedStep {t : EnvTable n} (h : Sound t) {i : Fin n} (hhead : t.freeHead = some i)
    {top : UInt64} (htop : stackTop t.config.layout i.val = .ok top) {binder : Binder} {binary : Bytes}
    {kind : Kind} {space : σ} {e : EnvError}
    (he : (prepare binder binary (t[i].id.next i.val)
      ⟨t.take i (t.newcomer i .none kind top), space⟩).outcome = .error e) :
    ∃ bottom, Word.sub? top t.config.layout.size = some bottom ∧
      FailedStep binder binary (t.newcomer i .none kind top) ⟨bottom, top⟩ space e := by
  have hid := h.resolve_take hhead htop .none kind
  have hslot := resolveEnv_eq_ok_iff.2 hid
  cases hbottom : Word.sub? top t.config.layout.size with
  | none =>
    rw [outcome_prepare_of_stop (by rw [stackRegion_of_none hslot htop hbottom]; rfl)] at he
    cases he
  | some bottom =>
    have hregion := congrArg Effect.outcome (stackRegion_of_some hslot htop hbottom)
    rw [outcome_prepare binder binary hid hregion, slots_take_self] at he
    exact ⟨bottom, rfl, failedStep_of_furnish he⟩

theorem EnvTable.Sound.undone {t : EnvTable n} (h : Sound t) {binder : Binder} {binary : Bytes}
    {kind : Kind} {space : σ} {e : EnvError}
    (he : (create binder binary kind ⟨t, space⟩).outcome = .error e) :
    Undone binder binary kind ⟨t, space⟩ e (create binder binary kind ⟨t, space⟩).state := by
  cases hlist : t.freeList with
  | nil =>
    have hhead : t.freeHead = none := by rw [h.head_eq, hlist, List.head?_nil]
    rw [create_of_empty binder hhead] at he ⊢
    cases he
    exact .full hlist
  | cons i rest =>
    have hhead : t.freeHead = some i := by rw [h.head_eq, hlist, List.head?_cons]
    obtain ⟨top, htop⟩ := h.exists_stackTop i
    have hprepared := prepared_prepare binder binary (h.resolve_take hhead htop .none kind) space
    have hfreed := h.free_prepared hhead htop .none kind hprepared
    have hcreate := h.create_eq binder hhead htop binary kind space
    rcases hend : prepare binder binary (t[i].id.next i.val)
      (⟨t.take i (t.newcomer i .none kind top), space⟩ : World n σ) with ⟨outcome, w, said⟩
    rw [hend] at hcreate hprepared
    rw [hcreate] at he ⊢
    cases outcome with
    | ok | stop => cases he
    | error e =>
      cases he
      obtain ⟨bottom, hbottom, hstep⟩ := h.failedStep hhead htop (by rw [hend])
      exact .failed hlist htop hbottom rfl hstep (congrArg Effect.outcome hfreed)
        (h.rolledBack hhead htop hprepared)

/-- After any run of a fresh table, a creation that ends with an error leaves no trace but in the slot it
had for a while, and its error is that of the step that failed. -/
theorem undone_run {config : Config} {t : EnvTable n} (h : EnvTable.new n config = .ok t)
    (ops : List Op) {binder : Binder} {binary : Bytes} {kind : Kind} {space : σ} {e : EnvError}
    (he : (create binder binary kind ⟨t.run ops, space⟩).outcome = .error e) :
    (∀ id, e ≠ .badHandle id) ∧ Undone binder binary kind ⟨t.run ops, space⟩ e
      (create binder binary kind ⟨t.run ops, space⟩).state := by
  have hundone := ((fresh_of_new h).sound.run ops).undone he
  exact ⟨hundone.ne_badHandle, hundone⟩

/-- A file without a byte is refused after its stack was mapped, in a slot that was given back before. -/
theorem undone_run_empty_image : ∃ t : EnvTable 2,
    EnvTable.new 2 (.userSpace ⟨8, 16⟩ ⟨27, 35⟩) = .ok t ∧
      (create {} .empty .user (⟨t.run [.alloc .none .user, .free ⟨0x1000⟩],
        {}⟩ : World 2 Memory.SparseSpace)).outcome = .error (.load (.malformed (.truncated 0))) ∧
      (∀ id, EnvError.load (.malformed (.truncated 0)) ≠ .badHandle id) ∧
      Undone {} .empty .user (⟨t.run [.alloc .none .user, .free ⟨0x1000⟩],
          {}⟩ : World 2 Memory.SparseSpace)
        (.load (.malformed (.truncated 0)))
        (create {} .empty .user (⟨t.run [.alloc .none .user, .free ⟨0x1000⟩],
          {}⟩ : World 2 Memory.SparseSpace)).state := by
  obtain ⟨t, h⟩ : ∃ t : EnvTable 2, EnvTable.new 2 (.userSpace ⟨8, 16⟩ ⟨27, 35⟩) = .ok t := ⟨_, rfl⟩
  have hfailed : (create {} .empty .user (⟨t.run [.alloc .none .user, .free ⟨0x1000⟩],
      {}⟩ : World 2 Memory.SparseSpace)).outcome = .error (.load (.malformed (.truncated 0))) := by
    cases h
    rfl
  exact ⟨t, h, hfailed, undone_run h _ hfailed⟩

end EnvKernel.Env
