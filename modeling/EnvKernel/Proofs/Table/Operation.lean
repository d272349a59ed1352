import EnvKernel.Proofs.Table.Invariant

/-!
The operations of a table, one by one: which handles name a slot, and for each operation under which
condition it succeeds, what it then does, and that otherwise it changes nothing.
-/

namespace EnvKernel.Env.EnvTable

variable {n : Nat} {t : EnvTable n} {id : EnvId} {i : Fin n}

/-! ### Looking a handle up -/

theorem resolve_of_isNone (h : id.isNone = true) (check : Bool) :
    t.resolve id check = .ok t.running? := by
  rw [resolve, if_pos h]

/-- A handle that is not the one of a live environment in its slot is refused. -/
theorem resolve_of_stale (hid : id.isNone = false)
    (h : ∀ i : Fin n, id.slot = i.val → t[i].status = .free ∨ t[i].id ≠ id)
    (check : Bool) : t.resolve id check = .error (.badHandle id) := by
  rw [resolve, if_neg (by rw [hid]; exact Bool.false_ne_true)]
  split
  · rename_i hlt
    exact if_pos (h ⟨id.slot, hlt⟩ rfl)
  · rfl

/-- Without a check of the parent, the handle of a live environment is found. -/
theorem resolve_of_live (hid : id.isNone = false) (hslot : id.slot = i.val)
    (hlive : t[i].status ≠ .free) (heq : t[i].id = id) :
    t.resolve id false = .ok (some i) := by
  obtain ⟨i, hi⟩ := i
  subst hslot
  rw [resolve, if_neg (by rw [hid]; exact Bool.false_ne_true), dif_pos hi]
  exact (if_neg (not_or.2 ⟨hlive, not_not.2 heq⟩)).trans (if_neg fun h => Bool.false_ne_true h.1)

/-- What a handle names, if it names a slot. -/
theorem resolve_eq_some (h : t.resolve id false = .ok (some i)) :
    (id.isNone = true ∧ t.running? = some i) ∨
      (id.isNone = false ∧ id.slot = i.val ∧ t[i].status ≠ .free ∧ t[i].id = id) := by
  cases hid : id.isNone with
  | true =>
    rw [resolve_of_isNone hid] at h
    exact .inl ⟨rfl, Except.ok.inj h⟩
  | false =>
    refine .inr ⟨rfl, ?_⟩
    rw [resolve, if_neg (by rw [hid]; exact Bool.false_ne_true)] at h
    split at h
    · simp only at h
      split at h
      · cases h
      · rename_i hlt hok
        split at h
        · cases h
        · obtain ⟨hfree, hne⟩ := not_or.1 hok
          cases Option.some.inj (Except.ok.inj h)
          exact ⟨rfl, hfree, not_not.1 hne⟩
    · cases h

theorem resolveEnv_eq_ok_iff : t.resolveEnv id = .ok i ↔ t.resolve id false = .ok (some i) := by
  unfold resolveEnv
  cases t.resolve id false with
  | error e => exact iff_of_false nofun nofun
  | ok slot =>
    cases slot with
    | none => exact iff_of_false nofun nofun
    | some j =>
      show Except.ok j = Except.ok i ↔ _
      simp

/-- Without a handle, the running environment is meant. -/
theorem resolveEnv_none_eq_ok_iff : t.resolveEnv .none = .ok i ↔ t.running? = some i := by
  rw [resolveEnv_eq_ok_iff, resolve_of_isNone rfl, Except.ok.injEq]

theorem resolveEnv_of_error {e : EnvError} (h : t.resolve id false = .error e) :
    t.resolveEnv id = .error e := by
  rw [resolveEnv, h]
  rfl

/-- A handle that is refused is told back. -/
theorem resolve_eq_error {check : Bool} {e : EnvError} (h : t.resolve id check = .error e) :
    e = .badHandle id := by
  unfold resolve at h
  split at h
  · cases h
  · split at h
    · simp only at h
      split at h
      · exact (Except.error.inj h).symm
      · split at h
        · exact (Except.error.inj h).symm
        · cases h
    · exact (Except.error.inj h).symm

theorem resolveEnv_eq_error {e : EnvError} (h : t.resolveEnv id = .error e) : e = .badHandle id := by
  cases hslot : t.resolve id false with
  | error e' =>
    rw [resolveEnv_of_error hslot] at h
    exact Except.error.inj h ▸ resolve_eq_error hslot
  | ok slot =>
    rw [resolveEnv, hslot] at h
    cases slot with
    | none => exact (Except.error.inj h).symm
    | some i => cases h

theorem live_of_resolveEnv (h : t.resolveEnv id = .ok i) : t[i].status ≠ .free := by
  rcases resolve_eq_some (resolveEnv_eq_ok_iff.1 h) with ⟨-, hrun⟩ | ⟨-, -, hlive, -⟩
  · exact live_of_running? hrun
  · exact hlive

/-- In a sound table an environment is found by its handle. -/
theorem Sound.resolveEnv_id (h : Sound t) (hi : t[i].status ≠ .free) :
    t.resolveEnv t[i].id = .ok i :=
  resolveEnv_eq_ok_iff.2
    (resolve_of_live (EnvId.isNone_of_pos (h.raw_pos hi)) (h.slot_id hi) hi rfl)

/-! ### Stacks -/

theorem shared_room {top size : UInt64} (h : fits n (.shared top size) = true) (hn : n < 2 ^ 64) :
    n * size.toNat ≤ top.toNat := by
  rw [fits, lowestStack?] at h
  obtain ⟨lowest, hlowest⟩ := Option.isSome_iff_exists.1 h
  obtain ⟨below, hbelow, h1⟩ := Option.bind_eq_some_iff.1 hlowest
  obtain ⟨last, hlast, h2⟩ := Option.bind_eq_some_iff.1 h1
  have hb := Word.toNat_mul? hbelow
  have hl := Word.toNat_sub? hlast
  rw [UInt64.toNat_ofNat', Nat.mod_eq_of_lt (by omega)] at hb
  have hle1 : below.toNat ≤ top.toNat := by
    by_contra hlt
    rw [Word.sub?_eq_none_iff.2 (by omega)] at hlast
    cases hlast
  have hle2 : size.toNat ≤ last.toNat := by
    by_contra hlt
    rw [Word.sub?_eq_none_iff.2 (by omega)] at h2
    cases h2
  rcases n with - | m
  · omega
  · rw [Nat.add_sub_cancel] at hb
    rw [Nat.succ_mul]
    omega

/-- The stacks of a shared memory are below each other. -/
theorem stackTop_shared {top size : UInt64} {slot : Nat} (hslot : slot < 2 ^ 64)
    (hroom : slot * size.toNat ≤ top.toNat) :
    ∃ rsp, stackTop (.shared top size) slot = .ok rsp ∧
      rsp.toNat = top.toNat - slot * size.toNat := by
  have hword : (UInt64.ofNat slot).toNat = slot := by
    rw [UInt64.toNat_ofNat', Nat.mod_eq_of_lt hslot]
  have htop := top.toNat_lt
  have hmul : Word.mul? (UInt64.ofNat slot) size = some (UInt64.ofNat slot * size) := by
    rw [Word.mul?, hword, if_pos (by omega)]
  have hbelow := Word.toNat_mul? hmul
  rw [hword] at hbelow
  have hsub : Word.sub? top (UInt64.ofNat slot * size) = some (top - UInt64.ofNat slot * size) := by
    rw [Word.sub?, if_pos (by omega)]
  refine ⟨top - UInt64.ofNat slot * size, ?_, ?_⟩
  · simp only [stackTop, hmul, hsub]
  · rw [Word.toNat_sub? hsub, hbelow]

/-- In a sound table that shares memory, there is room for a stack at every slot. -/
theorem Sound.shared_room (h : Sound t) {top size : UInt64} (hlayout : t.config.layout = .shared top size)
    (i : Fin n) : i.val * size.toNat + size.toNat ≤ top.toNat := by
  have hn : n ≤ 4096 := h.capacity.2.2
  have hroom := h.room
  rw [hlayout] at hroom
  have hall := EnvTable.shared_room hroom (by omega)
  have hi : (i.val + 1) * size.toNat ≤ n * size.toNat := Nat.mul_le_mul_right _ i.isLt
  rw [Nat.succ_mul] at hi
  omega

/-- Every slot of a sound table has a stack. -/
theorem Sound.exists_stackTop (h : Sound t) (i : Fin n) :
    ∃ top, stackTop t.config.layout i.val = .ok top := by
  have hslot := h.slot_lt i
  cases hlayout : t.config.layout with
  | separate top size => exact ⟨top, rfl⟩
  | shared top size =>
    have hroom := h.shared_room hlayout i
    obtain ⟨rsp, hrsp, -⟩ := stackTop_shared (show i.val < 2 ^ 64 by omega)
      (Nat.le_of_add_right_le hroom)
    exact ⟨rsp, hrsp⟩

/-! ### What the operations do -/

theorem alloc_of_empty (h : t.freeHead = none) (parent : EnvId) (kind : Kind) :
    alloc parent kind t = Action.fail .noFreeSlots t := by
  rw [alloc, h]

theorem alloc_of_head {rsp : UInt64} (h : t.freeHead = some i)
    (hrsp : stackTop t.config.layout i.val = .ok rsp) (parent : EnvId) (kind : Kind) :
    alloc parent kind t =
      { outcome := .ok (t[i].id.next i.val)
        state := t.take i (t.newcomer i parent kind rsp) } := by
  simp only [alloc, h, hrsp]
  rfl

theorem free_of_ok (h : t.resolveEnv id = .ok i) :
    free id t = { outcome := .ok (), state := t.giveBack i } := by
  simp only [free, h]

theorem free_of_error {e : EnvError} (h : t.resolveEnv id = .error e) :
    free id t = Action.fail e t := by
  simp only [free, h]

theorem getModify_of_ok {check : Bool} (h : t.resolve id check = .ok (some i))
    (f : Environment → Environment) :
    getModify id check f t = { outcome := .ok (some (f t[i])), state := t.modify i f } := by
  simp only [getModify, h]

theorem saveCurrent_of_ok (h : t.resolveEnv .none = .ok i) (tf : Trapframe) :
    saveCurrent tf t = { outcome := .ok (), state := t.modify i fun env => { env with tf } } := by
  simp only [saveCurrent, h]

theorem saveCurrent_of_error {e : EnvError} (h : t.resolveEnv .none = .error e) (tf : Trapframe) :
    saveCurrent tf t = Action.fail e t := by
  simp only [saveCurrent, h]

theorem state_stackRegion (id : EnvId) (t : EnvTable n) : (stackRegion id t).state = t := by
  unfold stackRegion
  split
  · rfl
  · split
    · rfl
    · split <;> rfl

theorem stackRegion_of_some {top bottom : UInt64} (h : t.resolveEnv id = .ok i)
    (htop : stackTop t.config.layout i.val = .ok top)
    (hbottom : Word.sub? top t.config.layout.size = some bottom) :
    stackRegion id t = { outcome := .ok ⟨bottom, top⟩, state := t } := by
  simp only [stackRegion, h, htop, hbottom]

theorem stackRegion_of_none {top : UInt64} (h : t.resolveEnv id = .ok i)
    (htop : stackTop t.config.layout i.val = .ok top)
    (hbottom : Word.sub? top t.config.layout.size = none) :
    stackRegion id t = Action.panic (.overflow .subtract) t := by
  simp only [stackRegion, h, htop, hbottom]

theorem switchTo_of_error {e : EnvError} (h : t.resolveEnv id = .error e) :
    switchTo id t = Action.fail e t := by
  simp only [switchTo, h]

theorem switchTo_of_not_mayRun (h : t.resolveEnv id = .ok i) (hready : t.mayRun i = false) :
    switchTo id t = Action.fail (.notRunnable t[i].id t[i].status) t := by
  simp only [switchTo, h, hready, Bool.false_eq_true, if_false]

theorem switchTo_of_mayRun (h : t.resolveEnv id = .ok i) (hready : t.mayRun i = true) :
    switchTo id t =
      if ∃ p, t.previous? i = some p ∧ t[p].status = .dying then
        Action.panic .destroyingRunning t
      else { outcome := .ok t[i].tf, state := t.handOver i } := by
  simp only [switchTo, h, hready, if_true]
  cases hp : t.previous? i with
  | none => simp [handOver, t.demote_of_none hp]
  | some p =>
    obtain ⟨-, hpi⟩ := t.previous?_eq_some_iff.1 hp
    have hkeep : ∀ f, (t.modify p f)[i] = t[i] := fun f =>
      t.slots_modify_other f (Ne.symm hpi)
    have hdying : (∃ q, some p = some q ∧ t[q].status = .dying) ↔
        t[p].status = .dying := by
      constructor
      · rintro ⟨q, hq, hs⟩
        exact Option.some.inj hq ▸ hs
      · exact fun hs => ⟨p, rfl, hs⟩
    simp only [hdying]
    rw [handOver, t.demote_of_some hp]
    cases hs : t[p].status with
    | dying => simp only [if_true]
    | running => simp only [if_true, reduceCtorEq, if_false, hkeep]
    | free | runnable | notRunnable => simp only [reduceCtorEq, if_false]

/-- Where every live environment can be run or is running, each of them may be given the processor. -/
theorem Scheduled.mayRun (h : Scheduled t) (hi : t[i].status ≠ .free) :
    t.mayRun i = true := by
  rcases h.active i with hs | hs | hs
  · exact absurd hs hi
  · rw [EnvTable.mayRun, hs]
  · rw [EnvTable.mayRun, hs, h.current_of_running i hs]
    exact beq_self_eq_true _

/-- There a switch to an environment that is found succeeds, and nothing stops the kernel. -/
theorem Scheduled.switchTo_eq (h : Scheduled t) (hid : t.resolveEnv id = .ok i) :
    switchTo id t = { outcome := .ok t[i].tf, state := t.handOver i } := by
  rw [switchTo_of_mayRun hid (h.mayRun (live_of_resolveEnv hid)), if_neg]
  rintro ⟨p, -, hp⟩
  rcases h.active p with hs | hs | hs <;> rw [hs] at hp <;> cases hp

end EnvKernel.Env.EnvTable
