import EnvKernel.Proofs.Table.Running

/-!
Who may look an environment up over whole runs. `guarded_run` is the main statement: as long as no slot has
had all of its handles, a lookup with a check finds exactly the running environment itself and those that
were created with it as parent. The table compares handles that it keeps; what they are compared with here
is the list of all births of a run, in which an occupant of a slot is told from the others by its number.
-/

namespace EnvKernel.Env

variable {n : Nat}

/-- An occupant of a slot. The first one has number one. -/
structure Tenant (n : Nat) where
  slot : Fin n
  number : Nat
deriving DecidableEq

/-- The handle of an occupant. -/
def Tenant.handle (x : Tenant n) : EnvId := .occupant x.slot x.number

/-- The present occupant of a slot, or the last one if the slot is free. -/
def tenant (past : List (Event n)) (i : Fin n) : Tenant n := ⟨i, (handles i past).length⟩

/-- A slot was handed out to an environment that was to have the given parent. -/
structure Birth (n : Nat) where
  child : Tenant n
  parent : Option (Tenant n)
deriving DecidableEq

/-- The birth that an event is. -/
def Event.birth? (past : List (Event n)) (parent : Option (Tenant n)) : Event n → Option (Birth n)
  | .issued i _ => some ⟨⟨i, (handles i past).length + 1⟩, parent⟩
  | _ => none

/-- The environment that the operation names as parent. -/
def Op.parent? (past : List (Event n)) (t : EnvTable n) : Op → Option (Tenant n)
  | .alloc parent _ =>
    if parent = .none then none else (t.resolveEnv parent).toOption.map (tenant past)
  | _ => none

/-- The parent that the operation names is no environment or a live one. -/
def Op.NamesParent (t : EnvTable n) : Op → Prop
  | .alloc parent _ => parent = .none ∨ ∃ env ∈ t.live, env.id = parent
  | _ => True

instance (t : EnvTable n) : (op : Op) → Decidable (op.NamesParent t)
  | .alloc _ _ => inferInstanceAs (Decidable (_ ∨ _))
  | .free _ => .isTrue trivial
  | .switchTo _ => .isTrue trivial
  | .saveCurrent _ => .isTrue trivial
  | @Op.create _ _ _ _ _ _ => .isTrue trivial

namespace EnvTable

/-- All births of a run, in order. What happened before counts the occupants. -/
def births (past : List (Event n)) (t : EnvTable n) : List Op → List (Birth n)
  | [] => []
  | op :: ops =>
    (t.events op).filterMap (Event.birth? past (op.parent? past t)) ++
      births (past ++ t.events op) (t.after op) ops

/-- Whenever the run names a parent, that is no environment or one that is live then. -/
def NamesParents : EnvTable n → List Op → Prop
  | _, [] => True
  | t, op :: ops => op.NamesParent t ∧ NamesParents (t.after op) ops

instance instDecidableNamesParents : (t : EnvTable n) → (ops : List Op) → Decidable (NamesParents t ops)
  | _, [] => .isTrue trivial
  | t, op :: ops =>
    have : Decidable (NamesParents (t.after op) ops) := instDecidableNamesParents (t.after op) ops
    inferInstanceAs (Decidable (_ ∧ _))

variable {t u : EnvTable n} {past done : List (Event n)} {log : List (Birth n)} {id : EnvId} {i : Fin n}

/-! ### Parents that are kept -/

/-- Every environment keeps the handle of the parent it was born to. -/
structure Family (past : List (Event n)) (log : List (Birth n)) (t : EnvTable n) : Prop where
  born : ∀ i : Fin n, t[i].status ≠ .free → ∃ parent, ⟨tenant past i, parent⟩ ∈ log
  parent_eq : ∀ (i : Fin n) parent, ⟨tenant past i, parent⟩ ∈ log →
    t[i].parent = (parent.map Tenant.handle).getD .none
  /-- Children were handed out already. -/
  child_le : ∀ birth ∈ log, birth.child.number ≤ (handles birth.child.slot past).length
  /-- Parents are occupants of other slots, which they had before. -/
  parent_le : ∀ birth ∈ log, ∀ parent, birth.parent = some parent → parent.slot ≠ birth.child.slot ∧
    1 ≤ parent.number ∧ parent.number ≤ (handles parent.slot past).length

theorem Fresh.family {config : Config} (h : Fresh config t) : Family [] [] t where
  born i hi := by
    rw [h.slots_eq] at hi
    exact absurd rfl hi
  parent_eq := nofun
  child_le := nofun
  parent_le := nofun

/-- A change that hands no slot out makes no slot live and keeps all parents. -/
theorem parent_move (hm : Move t done u) (hdone : ∀ i id, .issued i id ∉ done) (j : Fin n) :
    u[j].parent = t[j].parent ∧ (u[j].status ≠ .free → t[j].status ≠ .free) := by
  cases hm.fate j with
  | kept env_eq => rw [env_eq]; exact ⟨rfl, id⟩
  | demoted env_eq _ running => rw [env_eq]; exact ⟨rfl, fun _ => live_of_running? running⟩
  | taken _ _ _ _ done_eq => exact absurd (done_eq ▸ List.mem_singleton_self _) (hdone _ _)
  | givenBack env_eq => rw [env_eq]; exact ⟨rfl, fun h => absurd rfl h⟩
  | rewritten _ _ env_eq _ live => rw [env_eq]; exact ⟨rfl, fun _ => live⟩
  | selected env_eq _ ready => rw [env_eq]; exact ⟨rfl, fun _ => live_of_mayRun ready⟩

theorem handles_of_not_issued {done : List (Event n)} (hdone : ∀ i id, .issued i id ∉ done) (i : Fin n) :
    handles i done = [] := by
  rw [List.eq_nil_iff_forall_not_mem]
  exact fun id hid => hdone i id (mem_handles_iff.1 hid)

theorem Family.move (h : Family past log t) (hm : Move t done u) (hdone : ∀ i id, .issued i id ∉ done) :
    Family (past ++ done) log u := by
  have hhandles : ∀ i, handles i (past ++ done) = handles i past := fun i => by
    rw [handles_append, handles_of_not_issued hdone, List.append_nil]
  have htenant : ∀ i, tenant (past ++ done) i = tenant past i := fun i => by rw [tenant, hhandles]; rfl
  refine ⟨fun i hi => ?_, fun i parent hbirth => ?_, fun birth hbirth => ?_, fun birth hbirth => ?_⟩
  · rw [htenant]
    exact h.born i ((parent_move hm hdone i).2 hi)
  · rw [htenant] at hbirth
    rw [(parent_move hm hdone i).1]
    exact h.parent_eq i parent hbirth
  · rw [hhandles]
    exact h.child_le birth hbirth
  · simp only [hhandles]
    exact h.parent_le birth hbirth

/-- As long as no slot is handed out nobody is born. -/
theorem Family.moves (h : Family past log t) (hm : Moves t done u) (hdone : ∀ i id, .issued i id ∉ done) :
    Family (past ++ done) log u := by
  induction hm with
  | refl => rwa [List.append_nil]
  | tail _ hlast ih =>
    rw [← List.append_assoc]
    refine (ih fun i id hmem => ?_).move hlast fun i id hmem => ?_
    · exact hdone i id (List.mem_append_left _ hmem)
    · exact hdone i id (List.mem_append_right _ hmem)

/-- The environment that a slot is handed out to is born to the parent that it keeps. -/
theorem Family.take (h : Family past log t) {parent : EnvId} {kind : Kind} {rsp : UInt64}
    {born : Option (Tenant n)} (hparent : parent = (born.map Tenant.handle).getD .none)
    (hborn : ∀ x, born = some x → x.slot ≠ i ∧ 1 ≤ x.number ∧ x.number ≤ (handles x.slot past).length) :
    Family (past ++ [.issued i id]) (log ++ [⟨⟨i, (handles i past).length + 1⟩, born⟩])
      (t.take i (t.newcomer i parent kind rsp)) := by
  have hself : tenant (past ++ [.issued i id]) i = ⟨i, (handles i past).length + 1⟩ := by
    simp [tenant, handles, Event.handle?]
  have hother : ∀ j, j ≠ i → tenant (past ++ [.issued i id]) j = tenant past j := fun j hj => by
    simp [tenant, handles, Event.handle?, Ne.symm hj]
  have hle : ∀ j, (handles j past).length ≤ (handles j (past ++ [.issued i id])).length := fun j => by
    rw [handles_append, List.length_append]
    exact Nat.le_add_right _ _
  -- an occupant that is only now in its slot was not born before
  have hnew : ∀ p, ⟨⟨i, (handles i past).length + 1⟩, p⟩ ∉ log := fun p hmem =>
    Nat.not_succ_le_self _ (h.child_le _ hmem)
  refine ⟨fun j hj => ?_, fun j p hbirth => ?_, fun birth hbirth => ?_, fun birth hbirth x hx => ?_⟩
  · by_cases hji : j = i
    · subst hji
      rw [hself]
      exact ⟨born, List.mem_append_right _ (List.mem_singleton_self _)⟩
    · rw [slots_take_other t _ hji] at hj
      obtain ⟨p, hp⟩ := h.born j hj
      rw [hother j hji]
      exact ⟨p, List.mem_append_left _ hp⟩
  · by_cases hji : j = i
    · subst hji
      rw [hself] at hbirth
      rcases List.mem_append.1 hbirth with hold | hlast
      · exact absurd hold (hnew p)
      · rw [List.mem_singleton] at hlast
        cases hlast
        rw [slots_take_self]
        exact hparent
    · rw [hother j hji] at hbirth
      rcases List.mem_append.1 hbirth with hold | hlast
      · rw [slots_take_other t _ hji]
        exact h.parent_eq j p hold
      · rw [List.mem_singleton] at hlast
        exact absurd (congrArg (fun birth : Birth n => birth.child.slot) hlast) hji
  · rcases List.mem_append.1 hbirth with hold | hlast
    · exact Nat.le_trans (h.child_le birth hold) (hle _)
    · rw [List.mem_singleton.1 hlast, show (handles i (past ++ [.issued i id])).length = _ from
        congrArg Tenant.number hself]
  · rcases List.mem_append.1 hbirth with hold | hlast
    · obtain ⟨hslot, hpos, hnumber⟩ := h.parent_le birth hold x hx
      exact ⟨hslot, hpos, Nat.le_trans hnumber (hle _)⟩
    · rw [List.mem_singleton.1 hlast] at hx ⊢
      obtain ⟨hslot, hpos, hnumber⟩ := hborn x hx
      exact ⟨hslot, hpos, Nat.le_trans hnumber (hle _)⟩

/-! ### Runs -/

theorem Numbered.moves (h : Numbered past t) (hm : Moves t done u) : Numbered (past ++ done) u := by
  induction hm with
  | refl => rwa [List.append_nil]
  | tail _ hlast ih =>
    rw [← List.append_assoc]
    exact ih.move hlast

/-- A live slot has an occupant. -/
theorem Sound.tenant_pos (h : Sound t) (hn : Numbered past t) (hi : t[i].status ≠ .free) :
    1 ≤ (tenant past i).number := by
  obtain ⟨hid, -⟩ := hn i
  refine Nat.pos_of_ne_zero fun hzero => EnvId.raw_ne_zero (h.raw_pos hi) ?_
  rw [hid, show (handles i past).length = 0 from hzero]
  rfl

/-- The parent that is named is kept as the handle of an earlier occupant of another slot. -/
theorem Sound.parent?_eq (h : Sound t) (hn : Numbered past t) {parent : EnvId} {kind : Kind}
    (hop : (Op.alloc parent kind).NamesParent t) (hhead : t.freeHead = some i) :
    parent = (((Op.alloc parent kind).parent? past t).map Tenant.handle).getD .none ∧
      ∀ x, (Op.alloc parent kind).parent? past t = some x → x.slot ≠ i ∧ 1 ≤ x.number ∧
        x.number ≤ (handles x.slot past).length := by
  rw [Op.parent?]
  rcases hop with rfl | ⟨env, henv, rfl⟩
  · rw [if_pos rfl]
    exact ⟨rfl, nofun⟩
  · obtain ⟨j, hj, rfl⟩ := mem_live_iff.1 henv
    have hne : t[j].id ≠ .none := fun hnone => EnvId.raw_ne_zero (h.raw_pos hj) (congrArg EnvId.raw hnone)
    rw [if_neg hne, h.resolveEnv_id hj]
    refine ⟨(hn j).1, fun x hx => ?_⟩
    cases hx
    refine ⟨fun hji => hj ?_, h.tenant_pos hn hj, Nat.le_refl _⟩
    rw [show j = i from hji]
    exact h.free_of_head hhead

/-- Births after an operation. -/
theorem Family.after (h : Family past log t) (hs : Sound t) (hn : Numbered past t) {op : Op}
    (hop : op.NamesParent t) : Family (past ++ t.events op)
      (log ++ (t.events op).filterMap (Event.birth? past (op.parent? past t))) (t.after op) := by
  have hquiet : (∀ i id, .issued i id ∉ t.events op) → Family (past ++ t.events op)
      (log ++ (t.events op).filterMap (Event.birth? past (op.parent? past t))) (t.after op) := by
    intro hdone
    have hnone : (t.events op).filterMap (Event.birth? past (op.parent? past t)) = [] := by
      rw [List.filterMap_eq_nil_iff]
      intro e he
      cases e with
      | issued i id => exact absurd he (hdone i id)
      | freed | selected => rfl
    rw [hnone, List.append_nil]
    exact h.moves (hs.moves_after op) hdone
  cases op with
  | free id =>
    refine hquiet fun i other => ?_
    rw [events]
    split <;> simp
  | switchTo id =>
    refine hquiet fun i other => ?_
    rw [events]
    split <;> simp
  | saveCurrent tf => exact hquiet fun i other => List.not_mem_nil
  | alloc parent kind =>
    cases hhead : t.freeHead with
    | none =>
      refine hquiet fun i other => ?_
      rw [events, hs.issue_eq, hhead]
      exact List.not_mem_nil
    | some i =>
      obtain ⟨rsp, hrsp⟩ := hs.exists_stackTop i
      obtain ⟨hparent, hborn⟩ := hs.parent?_eq hn hop hhead
      rw [events, hs.issue_eq, hhead, EnvTable.after, alloc_of_head hhead hrsp]
      exact h.take hparent hborn
  | create space binder binary kind =>
    cases hhead : t.freeHead with
    | none =>
      refine hquiet fun i other => ?_
      rw [events, hs.issue_eq, hhead]
      exact List.not_mem_nil
    | some i =>
      obtain ⟨rsp, done, hrsp, hdone, hevents, hmoves⟩ :=
        hs.exists_moves_create hhead space binder binary kind
      have htaken : Family (past ++ [.issued i (t[i].id.next i.val)])
          (log ++ [⟨⟨i, (handles i past).length + 1⟩, none⟩])
          (t.take i (t.newcomer i .none kind rsp)) :=
        h.take rfl fun x hx => by cases hx
      have hlater := htaken.moves hmoves (by rcases hdone with rfl | rfl <;> simp)
      have hbirths : (t.events (.create space binder binary kind)).filterMap
          (Event.birth? past (Op.parent? past t (.create space binder binary kind))) =
          [⟨⟨i, (handles i past).length + 1⟩, none⟩] := by
        rw [hevents]
        rcases hdone with rfl | rfl <;> rfl
      rw [List.append_assoc] at hlater
      rw [hbirths, hevents]
      exact hlater

theorem Family.run (h : Family past log t) (hs : Sound t) (hn : Numbered past t) {ops : List Op}
    (hops : NamesParents t ops) :
    Family (past ++ t.history ops) (log ++ t.births past ops) (t.run ops) := by
  induction ops generalizing t past log with
  | nil =>
    rw [history, births, List.append_nil, List.append_nil]
    exact h
  | cons op ops ih =>
    have hmoves := hs.moves_after op
    have hrest := ih (h.after hs hn hops.1) (hs.moves hmoves) (hn.moves hmoves) hops.2
    rwa [List.append_assoc, List.append_assoc] at hrest

/-! ### Handles tell occupants apart -/

/-- Until a slot has had all of its handles, they tell its occupants apart. -/
theorem handle_inj {x y : Tenant n} (hn : n ≤ 4096) (hx : 1 ≤ x.number ∧ x.number < EnvId.generations)
    (hy : 1 ≤ y.number ∧ y.number < EnvId.generations) (heq : x.handle = y.handle) : x = y := by
  obtain ⟨i, j⟩ := x
  obtain ⟨i', k⟩ := y
  obtain ⟨j, rfl⟩ := Nat.exists_eq_add_of_le' hx.1
  obtain ⟨k, rfl⟩ := Nat.exists_eq_add_of_le' hy.1
  have hslot : i.val < 4096 := Nat.lt_of_lt_of_le i.isLt hn
  have hval : i = i' := Fin.ext <| by
    have hsame := congrArg EnvId.slot heq
    rwa [Tenant.handle, Tenant.handle, EnvId.slot_occupant hslot,
      EnvId.slot_occupant (Nat.lt_of_lt_of_le i'.isLt hn)] at hsame
  subst hval
  have hj : j + 1 < EnvId.generations := hx.2
  have hk : k + 1 < EnvId.generations := hy.2
  have hnumber := (EnvId.occupant_eq_iff hslot j k).1 heq
  rw [Nat.mod_eq_of_lt (by omega), Nat.mod_eq_of_lt (by omega)] at hnumber
  rw [hnumber]

theorem handle_ne_none {x : Tenant n} (hn : n ≤ 4096) (hx : 1 ≤ x.number) : x.handle ≠ .none := by
  obtain ⟨i, k⟩ := x
  obtain ⟨k, rfl⟩ := Nat.exists_eq_add_of_le' hx
  intro hnone
  have hpos := EnvId.raw_occupant_pos (Nat.lt_of_lt_of_le i.isLt hn) k
  exact EnvId.raw_ne_zero hpos (congrArg EnvId.raw hnone)

/-- The same for environments or none. -/
theorem handle?_inj {x y : Option (Tenant n)} (hn : n ≤ 4096)
    (hx : ∀ z, x = some z → 1 ≤ z.number ∧ z.number < EnvId.generations)
    (hy : ∀ z, y = some z → 1 ≤ z.number ∧ z.number < EnvId.generations)
    (heq : (x.map Tenant.handle).getD .none = (y.map Tenant.handle).getD .none) : x = y := by
  cases x with
  | none =>
    cases y with
    | none => rfl
    | some y => exact absurd heq.symm (handle_ne_none hn (hy y rfl).1)
  | some x =>
    cases y with
    | none => exact absurd heq (handle_ne_none hn (hx x rfl).1)
    | some y => rw [handle_inj hn (hx x rfl) (hy y rfl) heq]

/-! ### Lookups with a check -/

/-- Who runs. The kernel itself is no environment. -/
def caller (past : List (Event n)) (t : EnvTable n) : Option (Tenant n) := t.running?.map (tenant past)

/-- The environment in slot `i` is the one that runs, or it was born to the one that runs. -/
def Admits (past : List (Event n)) (log : List (Birth n)) (t : EnvTable n) (i : Fin n) : Prop :=
  t.running? = some i ∨ ⟨tenant past i, t.caller past⟩ ∈ log

/-- With a check the handle of a live environment is found by the environment and by its parent. -/
theorem Sound.resolve_checked (h : Sound t) (hi : t[i].status ≠ .free) : t.resolve t[i].id true =
    if t[i].id = t.currentId ∨ t[i].parent = t.currentId then .ok (some i)
    else .error (.badHandle t[i].id) := by
  have hlt : t[i].id.slot < n := by
    rw [h.slot_id hi]
    exact i.isLt
  have hslot : (⟨t[i].id.slot, hlt⟩ : Fin n) = i := Fin.ext (h.slot_id hi)
  rw [resolve, if_neg (by rw [EnvId.isNone_of_pos (h.raw_pos hi)]; exact Bool.false_ne_true), dif_pos hlt]
  simp only [hslot, hi, ne_eq, not_true_eq_false, or_self, if_false, true_and]
  by_cases hcheck : t[i].id = t.currentId ∨ t[i].parent = t.currentId
  · rw [if_neg (fun hnot => hcheck.elim hnot.1 hnot.2), if_pos hcheck]
  · rw [if_pos (not_or.1 hcheck), if_neg hcheck]

theorem Sound.currentId_eq (hn : Numbered past t) :
    t.currentId = ((t.caller past).map Tenant.handle).getD .none := by
  rw [caller]
  cases hrun : t.running? with
  | none => exact currentId_of_none hrun
  | some i =>
    rw [currentId_of_running hrun]
    exact (hn i).1

section Guarded

variable (h : Family past log t) (hs : Sound t) (hn : Numbered past t)
  (hcount : ∀ i, (handles i past).length < EnvId.generations)

include h hs hn hcount

omit hn in
/-- A parent is known by its handle. -/
theorem Family.parent_unique {parent other : Option (Tenant n)} (hbirth : ⟨tenant past i, parent⟩ ∈ log)
    (hother : ∀ x, other = some x → 1 ≤ x.number ∧ x.number ≤ (handles x.slot past).length)
    (heq : t[i].parent = (other.map Tenant.handle).getD .none) : parent = other := by
  refine handle?_inj hs.capacity.2.2 (fun x hx => ?_) (fun x hx => ?_) ?_
  · obtain ⟨-, hpos, hle⟩ := h.parent_le _ hbirth x hx
    exact ⟨hpos, Nat.lt_of_le_of_lt hle (hcount _)⟩
  · obtain ⟨hpos, hle⟩ := hother x hx
    exact ⟨hpos, Nat.lt_of_le_of_lt hle (hcount _)⟩
  · rw [← h.parent_eq i parent hbirth, heq]

/-- The handles that the table compares say who is whose child. -/
theorem Family.admits_iff (hi : t[i].status ≠ .free) :
    Admits past log t i ↔ t[i].id = t.currentId ∨ t[i].parent = t.currentId := by
  have hcaller : ∀ x, t.caller past = some x →
      1 ≤ x.number ∧ x.number ≤ (handles x.slot past).length := by
    intro x hx
    obtain ⟨j, hj, rfl⟩ := Option.map_eq_some_iff.1 hx
    exact ⟨hs.tenant_pos hn (live_of_running? hj), Nat.le_refl _⟩
  refine or_congr ⟨fun hrun => ?_, fun hid => ?_⟩ ⟨fun hbirth => ?_, fun hparent => ?_⟩
  · rw [currentId_of_running hrun]
  · cases hrun : t.running? with
    | none =>
      rw [currentId_of_none hrun] at hid
      exact absurd (congrArg EnvId.raw hid) (EnvId.raw_ne_zero (hs.raw_pos hi))
    | some j =>
      rw [currentId_of_running hrun] at hid
      rw [hs.eq_of_id_eq hi (live_of_running? hrun) hid]
  · rw [Sound.currentId_eq hn]
    exact h.parent_eq i _ hbirth
  · obtain ⟨parent, hbirth⟩ := h.born i hi
    rw [Sound.currentId_eq hn] at hparent
    rwa [h.parent_unique hs hcount hbirth hcaller hparent] at hbirth

omit hn in
/-- An environment was born once. -/
theorem Family.birth_unique {parent other : Option (Tenant n)} (hbirth : ⟨tenant past i, parent⟩ ∈ log)
    (hother : ⟨tenant past i, other⟩ ∈ log) : parent = other :=
  h.parent_unique hs hcount hbirth (fun x hx => (h.parent_le _ hother x hx).2) (h.parent_eq i other hother)

end Guarded

/-- Who may look whom up in table `t`, after the births of `log`. -/
structure Guarded (past : List (Event n)) (log : List (Birth n)) (t : EnvTable n) : Prop where
  running_iff : ∀ i : Fin n, t[i].status = .running ↔ t.running? = some i
  /-- Every environment was born once. -/
  born : ∀ i : Fin n, t[i].status ≠ .free → ∃! parent, ⟨tenant past i, parent⟩ ∈ log
  granted : ∀ i : Fin n, t[i].status ≠ .free → Admits past log t i →
    t.get t[i].id true = .ok (some t[i]) ∧
      ∀ f, getModify t[i].id true f t = { outcome := .ok (some (f t[i])), state := t.modify i f }
  refused : ∀ id, id ≠ .none →
    (∀ i : Fin n, t[i].status ≠ .free → t[i].id = id → ¬ Admits past log t i) →
      t.get id true = .error (.badHandle id) ∧
        ∀ f, getModify id true f t = Action.fail (.badHandle id) t
  /-- Whoever has the slot of a parent but is another environment is refused the children of it. -/
  heir : ∀ (i j : Fin n) (k : Nat), t[i].status ≠ .free → ⟨tenant past i, some ⟨j, k⟩⟩ ∈ log →
    t.running? = some j → (tenant past j).number ≠ k →
      t.get t[i].id true = .error (.badHandle t[i].id) ∧
        ∀ f, getModify t[i].id true f t = Action.fail (.badHandle t[i].id) t
  /-- Without a handle the running environment is found, or the kernel. -/
  caller : ∀ check, t.get .none check = .ok (t.running?.map fun i => t[i]) ∧
    ∀ f, (getModify .none check f t).outcome = .ok (t.running?.map fun i => f t[i])
  /-- Looking an environment up without changing it changes nothing. -/
  unchanged : ∀ id check, (getModify id check (fun env => env) t).state = t

/-- An environment that is replaced by itself. -/
theorem modify_same (t : EnvTable n) (i : Fin n) : t.modify i (fun env => env) = t := by
  have hslots : t.slots.set i t[i] = t.slots := Vector.set_getElem_self i.isLt
  rw [modify, hslots]

theorem get_of_error {check : Bool} {e : EnvError} (h : t.resolve id check = .error e) :
    t.get id check = .error e ∧ ∀ f, getModify id check f t = Action.fail e t := by
  refine ⟨?_, fun f => ?_⟩
  · rw [get, h]
    rfl
  · simp only [getModify, h]

theorem Family.guarded (h : Family past log t) (hs : Sound t) (hscheduled : Scheduled t)
    (hn : Numbered past t) (hcount : ∀ i, (handles i past).length < EnvId.generations) :
    Guarded past log t where
  running_iff i := by
    rw [running?_eq_some_iff]
    exact ⟨fun hi => ⟨hscheduled.current_of_running i hi, hi⟩, And.right⟩
  born i hi := by
    obtain ⟨parent, hbirth⟩ := h.born i hi
    exact ⟨parent, hbirth, fun other hother => h.birth_unique hs hcount hother hbirth⟩
  granted i hi hadmits := by
    have hfound := hs.resolve_checked hi
    rw [if_pos ((h.admits_iff hs hn hcount hi).1 hadmits)] at hfound
    refine ⟨?_, getModify_of_ok hfound⟩
    rw [get, hfound]
    rfl
  refused id hid hno := by
    refine get_of_error ?_
    have hnone : id.isNone = false := by
      rw [EnvId.isNone, beq_eq_false_iff_ne]
      exact fun hraw => hid (by cases id; cases hraw; rfl)
    by_cases hlive : ∃ i : Fin n, t[i].status ≠ .free ∧ t[i].id = id
    · obtain ⟨i, hi, rfl⟩ := hlive
      have hadmits := mt (h.admits_iff hs hn hcount hi).2 (hno i hi rfl)
      rw [hs.resolve_checked hi, if_neg hadmits]
    · refine resolve_of_stale hnone (fun i _ => ?_) true
      by_contra hboth
      rw [not_or, not_not] at hboth
      exact hlive ⟨i, hboth⟩
  heir i j k hi hbirth hrun hk := by
    have hadmits : ¬ Admits past log t i := by
      rintro (hself | hchild)
      · have hij : i = j := Option.some.inj (hself.symm.trans hrun)
        exact (h.parent_le _ hbirth _ rfl).1 hij.symm
      · rw [EnvTable.caller, hrun] at hchild
        have hparent := h.birth_unique hs hcount hchild hbirth
        cases hparent
        exact hk rfl
    refine get_of_error ?_
    rw [hs.resolve_checked hi, if_neg (mt (h.admits_iff hs hn hcount hi).2 hadmits)]
  caller check := by
    have hfound : t.resolve .none check = .ok t.running? := resolve_of_isNone rfl check
    refine ⟨?_, fun f => ?_⟩
    · rw [get, hfound]
      rfl
    · cases hrun : t.running? with
      | none => simp only [getModify, hfound, hrun, Option.map_none]
      | some i => simp only [getModify, hfound, hrun, Option.map_some]
  unchanged id check := by
    unfold getModify
    split
    · rfl
    · rfl
    · exact modify_same t _

/-- After a run of a fresh table in which every parent that is named is live then, and as long as no slot has
been handed out as often as there are generations, lookups with a check find the caller and its children. -/
theorem guarded_run {config : Config} {t : EnvTable n} (h : new n config = .ok t) (ops : List Op)
    (hparents : NamesParents t ops)
    (hcount : ∀ i, (handles i (t.history ops)).length < EnvId.generations) :
    Guarded (t.history ops) (t.births [] ops) (t.run ops) := by
  have hfresh := fresh_of_new h
  have hfamily := hfresh.family.run hfresh.sound hfresh.numbered hparents
  have hscheduled := hfresh.scheduled.moves (hfresh.sound.moves_run ops)
  exact hfamily.guarded (hfresh.sound.run ops) hscheduled (hfresh.numbered_run ops) hcount

/-- A parent gives itself up and its slot is handed out again: the new one runs and is refused the child. -/
theorem guarded_run_heir : ∃ t : EnvTable 2,
    new 2 (.userSpace ⟨8, 16⟩ ⟨27, 35⟩) = .ok t ∧
      let u := t.run [.alloc .none .user, .switchTo ⟨0x1000⟩, .alloc ⟨0x1000⟩ .user, .free .none,
        .alloc .none .user, .switchTo ⟨0x2000⟩]
      u[(1 : Fin 2)].id = ⟨0x1001⟩ ∧ u.currentId = ⟨0x2000⟩ ∧
        u.get u[(1 : Fin 2)].id true = .error (.badHandle u[(1 : Fin 2)].id) := by
  obtain ⟨t, h⟩ : ∃ t : EnvTable 2, new 2 (.userSpace ⟨8, 16⟩ ⟨27, 35⟩) = .ok t := ⟨_, rfl⟩
  refine ⟨t, h, ?_, ?_, ((guarded_run h _ ?_ ?_).heir 1 0 1 ?_ ?_ ?_ ?_).1⟩
  all_goals
    cases h
    decide

end EnvTable

end EnvKernel.Env
