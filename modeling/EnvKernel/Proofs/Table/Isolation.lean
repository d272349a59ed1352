import EnvKernel.Proofs.Table.Running

/-!
What operations leave alone. `isolated_run` is the main statement: in every table that can come about, an
operation changes no slot but the one it is about, except that a switch takes the processor from whoever
had it; and the registers that are kept for a running environment are the ones it goes on with, whatever
is done with all others until then. The slot of the running environment is found by the current slot,
which is not cleared when its environment is given up, so that keeping registers has to be shown never to
reach another occupant of it.
-/

namespace EnvKernel.Env

open EnvTable

variable {n : Nat}

/-- The operation is not about the environment with handle `id`: it neither gives it up, nor hands it the
processor, nor keeps registers for it. Without a handle, an operation is about the running environment. -/
def Op.Spares (t : EnvTable n) (id : EnvId) : Op → Prop
  | .free other => other ≠ id ∧ (other.isNone = true → t.currentId ≠ id)
  | .switchTo other => other ≠ id ∧ (other.isNone = true → t.currentId ≠ id)
  | .saveCurrent _ => t.currentId ≠ id
  | .alloc _ _ => True
  | @Op.create _ _ _ _ _ _ => True

instance (t : EnvTable n) (id : EnvId) : (op : Op) → Decidable (op.Spares t id)
  | .free _ => inferInstanceAs (Decidable (_ ∧ _))
  | .switchTo _ => inferInstanceAs (Decidable (_ ∧ _))
  | .saveCurrent _ => inferInstanceAs (Decidable (_ ≠ _))
  | .alloc _ _ => .isTrue trivial
  | @Op.create _ _ _ _ _ _ => .isTrue trivial

namespace EnvTable

/-- No operation of a run is about the environment with handle `id`. -/
def Spared (id : EnvId) : EnvTable n → List Op → Prop
  | _, [] => True
  | t, op :: ops => op.Spares t id ∧ Spared id (t.after op) ops

instance instDecidableSpared (id : EnvId) : (t : EnvTable n) → (ops : List Op) → Decidable (Spared id t ops)
  | _, [] => .isTrue trivial
  | t, op :: ops =>
    have : Decidable (Spared id (t.after op) ops) := instDecidableSpared id (t.after op) ops
    inferInstanceAs (Decidable (_ ∧ _))

/-- The slot that an operation is about, if there is one. -/
def target? (t : EnvTable n) : Op → Option (Fin n)
  | .alloc _ _ => t.freeHead
  | .free id => (t.resolveEnv id).toOption
  | .switchTo id => (t.resolveEnv id).toOption
  | .saveCurrent _ => t.running?
  | @Op.create _ _ _ _ _ _ => t.freeHead

/-- Slot `j` is the same in tables `t` and `u`, with its link. -/
def SameSlot (t u : EnvTable n) (j : Fin n) : Prop := u[j] = t[j] ∧ u.link j = t.link j

/-- Slot `j` lost the processor between tables `t` and `u`, and nothing else. -/
def Demoted (t u : EnvTable n) (j : Fin n) : Prop :=
  t[j].status = .running ∧ t.current = some j ∧ u[j] = { t[j] with status := .runnable } ∧
    u.link j = t.link j

variable {t u : EnvTable n} {i j : Fin n} {id : EnvId} {tf : Trapframe}

/-! ### Slots that an operation is not about -/

theorem toOption_eq_some_iff {ε α : Type} {x : Except ε α} {a : α} :
    x.toOption = some a ↔ x = .ok a := by
  cases x with
  | error e => exact iff_of_false nofun nofun
  | ok b => simp [Except.toOption]

theorem SameSlot.refl (t : EnvTable n) (j : Fin n) : SameSlot t t j := ⟨rfl, rfl⟩

theorem SameSlot.trans {v : EnvTable n} (h : SameSlot t u j) (h' : SameSlot u v j) : SameSlot t v j :=
  ⟨h'.1.trans h.1, h'.2.trans h.2⟩

theorem sameSlot_take (env : Environment) (hj : j ≠ i) : SameSlot t (t.take i env) j :=
  ⟨t.slots_take_other env hj, t.link_take_other env hj⟩

theorem sameSlot_giveBack (hj : j ≠ i) : SameSlot t (t.giveBack i) j :=
  ⟨t.slots_giveBack_other hj, t.link_giveBack_other hj⟩

theorem sameSlot_modify (f : Environment → Environment) (hj : j ≠ i) : SameSlot t (t.modify i f) j :=
  ⟨t.slots_modify_other f hj, rfl⟩

theorem Prepared.sameSlot {binary : Bytes} (h : Prepared t i binary u) (hj : j ≠ i) :
    SameSlot t u j := by
  obtain ⟨hslots, hlink, -⟩ := h.others
  exact ⟨hslots j hj, by rw [hlink]⟩

theorem handOver_other (t : EnvTable n) (hj : j ≠ i) :
    SameSlot t (t.handOver i) j ∨ Demoted t (t.handOver i) j := by
  have hslot := t.slots_handOver_other hj
  have hlink : (t.handOver i).link j = t.link j := by rw [link_handOver]
  by_cases hrun : t.running? = some j
  · obtain ⟨hcurrent, hstatus⟩ := t.running?_eq_some_iff.1 hrun
    rw [if_pos hrun] at hslot
    exact .inr ⟨hstatus, hcurrent, hslot, hlink⟩
  · rw [if_neg hrun] at hslot
    exact .inl ⟨hslot, hlink⟩

theorem Sound.sameSlot_alloc (h : Sound t) {parent : EnvId} {kind : Kind}
    (hj : t.target? (.alloc parent kind) ≠ some j) :
    SameSlot t (t.after (.alloc parent kind)) j := by
  rw [after]
  cases hhead : t.freeHead with
  | none =>
    rw [alloc_of_empty hhead]
    exact .refl t j
  | some i =>
    obtain ⟨rsp, hrsp⟩ := h.exists_stackTop i
    rw [alloc_of_head hhead hrsp]
    refine sameSlot_take _ fun hji => hj ?_
    rw [target?, hhead, hji]

theorem sameSlot_free (hj : t.target? (.free id) ≠ some j) : SameSlot t (t.after (.free id)) j := by
  rw [after]
  cases hid : t.resolveEnv id with
  | error e =>
    rw [free_of_error hid]
    exact .refl t j
  | ok i =>
    rw [free_of_ok hid]
    exact sameSlot_giveBack fun hji => hj (toOption_eq_some_iff.2 (hji ▸ hid))

theorem sameSlot_saveCurrent (hj : t.target? (.saveCurrent tf) ≠ some j) :
    SameSlot t (t.after (.saveCurrent tf)) j := by
  rw [after]
  cases hid : t.resolveEnv .none with
  | error e =>
    rw [saveCurrent_of_error hid]
    exact .refl t j
  | ok i =>
    rw [saveCurrent_of_ok hid]
    refine sameSlot_modify _ fun hji => hj ?_
    rw [target?, resolveEnv_none_eq_ok_iff.1 hid, hji]

theorem switchTo_other (hj : t.target? (.switchTo id) ≠ some j) :
    SameSlot t (t.after (.switchTo id)) j ∨ Demoted t (t.after (.switchTo id)) j := by
  rw [after]
  cases hid : t.resolveEnv id with
  | error e =>
    rw [switchTo_of_error hid]
    exact .inl (.refl t j)
  | ok i =>
    cases hready : t.mayRun i with
    | false =>
      rw [switchTo_of_not_mayRun hid hready]
      exact .inl (.refl t j)
    | true =>
      rw [switchTo_of_mayRun hid hready]
      split
      · exact .inl (.refl t j)
      · exact t.handOver_other fun hji => hj (toOption_eq_some_iff.2 (hji ▸ hid))

theorem Sound.sameSlot_create {σ : Type} [Memory.AddressSpace σ] (h : Sound t) {space : σ}
    {binder : Binder} {binary : Bytes} {kind : Kind}
    (hj : t.target? (.create space binder binary kind) ≠ some j) :
    SameSlot t (t.after (.create space binder binary kind)) j := by
  rw [after]
  cases hhead : t.freeHead with
  | none =>
    rw [create_of_empty binder hhead]
    exact .refl t j
  | some i =>
    have hji : j ≠ i := fun hji => hj (by rw [target?, hhead, hji])
    obtain ⟨rsp, u, -, hprepared, hend⟩ := h.create_cases binder hhead binary kind space
    have hmade : SameSlot t u j := (sameSlot_take _ hji).trans (hprepared.sameSlot hji)
    rcases hend with ⟨-, henvs⟩ | ⟨how, -, henvs⟩ | ⟨e, -, henvs⟩
    · rw [henvs]
      exact hmade
    · rw [henvs]
      exact hmade
    · rw [henvs]
      exact hmade.trans (sameSlot_giveBack hji)

/-- An operation changes only the slot it is about, and a switch also the one that loses the processor. -/
theorem Sound.after_other (h : Sound t) {op : Op} (hj : t.target? op ≠ some j) :
    SameSlot t (t.after op) j ∨ (∃ id, op = .switchTo id) ∧ Demoted t (t.after op) j := by
  cases op with
  | alloc parent kind => exact .inl (h.sameSlot_alloc hj)
  | free id => exact .inl (sameSlot_free hj)
  | switchTo id => exact (switchTo_other hj).imp_right fun hlost => ⟨⟨id, rfl⟩, hlost⟩
  | saveCurrent tf => exact .inl (sameSlot_saveCurrent hj)
  | create space binder binary kind => exact .inl (h.sameSlot_create hj)

/-! ### Registers that are kept -/

/-- Slot `i` is that of the environment with handle `id`, which goes on with registers `tf`. -/
structure Keeps (t : EnvTable n) (i : Fin n) (id : EnvId) (tf : Trapframe) : Prop where
  live : t[i].status ≠ .free
  id_eq : t[i].id = id
  tf_eq : t[i].tf = tf

/-- A handle that is not the one of an environment does not name its slot, and no handle names it only while
it runs. -/
theorem Keeps.resolveEnv_ne (hk : Keeps t i id tf) {other : EnvId}
    (hother : other ≠ id ∧ (other.isNone = true → t.currentId ≠ id)) : t.resolveEnv other ≠ .ok i := by
  intro hfound
  rcases resolve_eq_some (resolveEnv_eq_ok_iff.1 hfound) with ⟨hnone, hrun⟩ | ⟨-, -, -, heq⟩
  · exact hother.2 hnone ((currentId_of_running hrun).trans hk.id_eq)
  · exact hother.1 (heq.symm.trans hk.id_eq)

/-- An operation that spares an environment is not about its slot. -/
theorem Keeps.target_ne (hk : Keeps t i id tf) (h : Sound t) {op : Op} (hop : op.Spares t id) :
    t.target? op ≠ some i := by
  cases op with
  | alloc | create => exact fun hhead => hk.live (h.free_of_head hhead)
  | free | switchTo => exact mt toOption_eq_some_iff.1 (hk.resolveEnv_ne hop)
  | saveCurrent => exact fun hrun => hop ((currentId_of_running hrun).trans hk.id_eq)

/-- What spares an environment leaves its registers as they are. -/
theorem Keeps.after (hk : Keeps t i id tf) (h : Sound t) {op : Op} (hop : op.Spares t id) :
    Keeps (t.after op) i id tf := by
  rcases h.after_other (hk.target_ne h hop) with ⟨henv, -⟩ | ⟨-, -, -, henv, -⟩
  · exact ⟨henv ▸ hk.live, henv ▸ hk.id_eq, henv ▸ hk.tf_eq⟩
  · constructor <;> rw [henv]
    · nofun
    · exact hk.id_eq
    · exact hk.tf_eq

theorem Keeps.run (hk : Keeps t i id tf) (h : Sound t) {ops : List Op} (hops : Spared id t ops) :
    Keeps (t.run ops) i id tf := by
  induction ops generalizing t with
  | nil => exact hk
  | cons op ops ih => exact ih (hk.after h hops.1) (h.moves (h.moves_after op)) hops.2

/-! ### The main statement -/

/-- What operations leave alone in a table. -/
structure Isolated (t : EnvTable n) : Prop where
  /-- A slot that an operation is not about stays as it is, but for the processor in a switch. -/
  others : ∀ (op : Op) (j : Fin n), t.target? op ≠ some j →
    SameSlot t (t.after op) j ∨ (∃ id, op = .switchTo id) ∧ Demoted t (t.after op) j
  /-- The running environment goes on with the registers that were kept for it last. -/
  kept : ∀ env, t.current? = some env → ∀ tf, ∃ u,
    saveCurrent tf t = { outcome := .ok (), state := u } ∧
      ∀ ops, Spared env.id u ops → (switchTo env.id (u.run ops)).outcome = .ok tf

theorem Scheduled.isolated (h : Scheduled t) (hs : Sound t) : Isolated t where
  others op j hj := hs.after_other hj
  kept env henv tf := by
    obtain ⟨i, hrun, rfl⟩ := Option.map_eq_some_iff.1 henv
    have hcaller := resolveEnv_none_eq_ok_iff.2 hrun
    have hlive := live_of_resolveEnv hcaller
    have hsave := saveCurrent_of_ok hcaller tf
    refine ⟨_, hsave, fun ops hops => ?_⟩
    set u := t.modify i fun env => { env with tf }
    have hmove : Move t [] u := .rewrite i tf t[i].binary hlive
    have hself : u[i] = { t[i] with tf } := t.slots_modify_self _
    have hkeeps : Keeps u i t[i].id tf := by
      constructor <;> rw [hself]
      exact hlive
    have hsound := hs.move hmove
    have hafter := hkeeps.run hsound hops
    have hend := (h.move hmove).moves (hsound.moves_run ops)
    have hfound := (hsound.run ops).resolveEnv_id hafter.live
    rw [hafter.id_eq] at hfound
    rw [hend.switchTo_eq hfound, hafter.tf_eq]

/-- After any run of a fresh table, operations leave alone what they are not about, and registers that
are kept for the running environment come back. -/
theorem isolated_run {config : Config} (h : new n config = .ok t) (ops : List Op) :
    Isolated (t.run ops) := by
  have hfresh := fresh_of_new h
  exact (hfresh.scheduled.moves (hfresh.sound.moves_run ops)).isolated (hfresh.sound.run ops)

/-- An environment goes on with its registers after another one ran, kept registers of its own and gave
itself up, its slot was handed out again, and a third one could not be created. -/
theorem isolated_run_pair : ∃ t : EnvTable 2, new 2 (.userSpace ⟨8, 16⟩ ⟨27, 35⟩) = .ok t ∧
    ∃ u, saveCurrent { rip := 7, rsp := 0x4000 }
        (t.run [.alloc .none .user, .alloc .none .user, .switchTo ⟨0x1000⟩]) =
        { outcome := .ok (), state := u } ∧
      (switchTo ⟨0x1000⟩ (u.run [.switchTo ⟨0x1001⟩, .saveCurrent { rip := 9 }, .free .none,
        .alloc .none .user,
          .create ({} : Memory.SparseSpace) {} .empty .user])).outcome =
        .ok { rip := 7, rsp := 0x4000 } := by
  obtain ⟨t, h⟩ : ∃ t : EnvTable 2, new 2 (.userSpace ⟨8, 16⟩ ⟨27, 35⟩) = .ok t := ⟨_, rfl⟩
  have hisolated := isolated_run h [.alloc .none .user, .alloc .none .user, .switchTo ⟨0x1000⟩]
  cases h
  obtain ⟨u, hsave, hkept⟩ := hisolated.kept _ rfl { rip := 7, rsp := 0x4000 }
  refine ⟨_, rfl, u, hsave, hkept _ ?_⟩
  cases hsave
  decide

end EnvTable

end EnvKernel.Env
