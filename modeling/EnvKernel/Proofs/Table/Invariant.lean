import EnvKernel.Proofs.Handle
import EnvKernel.Proofs.Table.Chain

/-!
What every table has in common, whatever was done with it. `Sound` is about the free list and the
handles and does not depend on who is running; `Scheduled` is about the states of the slots. Each is
preserved by every move, and a fresh table has both.
-/

namespace EnvKernel.Env.EnvTable

variable {n : Nat} {t u : EnvTable n} {done : List (Event n)}

/-- The free slots are linked, all stacks have room, and every slot holds the handle of one of its
occupants, or of nobody if it never had one. -/
structure Sound (t : EnvTable n) : Prop extends Linked t where
  capacity : IsCapacity n
  room : fits n t.config.layout = true
  numbered : ∀ i : Fin n, ∃ k, t[i].id = .occupant i k ∧ (k = 0 → t[i].status = .free)

/-- Environments can be run or are running, and only the current one is running. -/
structure Scheduled (t : EnvTable n) : Prop where
  active : ∀ i : Fin n, t[i].status = .free ∨ t[i].status = .runnable ∨ t[i].status = .running
  current_of_running : ∀ i : Fin n, t[i].status = .running → t.current = some i

/-! ### Live environments -/

theorem toList_slots (t : EnvTable n) :
    t.slots.toList = (List.finRange n).map fun i => t[i] := by
  apply List.ext_getElem
  · simp
  · intro k _ _
    simp only [Vector.getElem_toList, List.getElem_map, List.getElem_finRange]
    rfl

theorem live_eq (t : EnvTable n) : t.live =
    ((List.finRange n).filter fun i => t[i].status != .free).map fun i => t[i] := by
  rw [live, toList_slots, List.filter_map]
  rfl

theorem mem_live_iff {env : Environment} :
    env ∈ t.live ↔ ∃ i : Fin n, t[i].status ≠ .free ∧ t[i] = env := by
  simp only [live_eq, List.mem_map, List.mem_filter, List.mem_finRange, true_and, bne_iff_ne]

theorem Sound.slot_lt (h : Sound t) (i : Fin n) : i.val < 4096 :=
  Nat.lt_of_lt_of_le i.isLt h.capacity.2.2

/-- A live environment has the handle of an occupant of its slot. -/
theorem Sound.exists_occupant (h : Sound t) {i : Fin n} (hi : t[i].status ≠ .free) :
    ∃ k, t[i].id = .occupant i (k + 1) := by
  obtain ⟨k, hid, hzero⟩ := h.numbered i
  cases k with
  | zero => exact absurd (hzero rfl) hi
  | succ k => exact ⟨k, hid⟩

theorem Sound.raw_pos (h : Sound t) {i : Fin n} (hi : t[i].status ≠ .free) :
    0 < t[i].id.raw := by
  obtain ⟨k, hid⟩ := h.exists_occupant hi
  rw [hid]
  exact EnvId.raw_occupant_pos (h.slot_lt i) k

theorem Sound.slot_id (h : Sound t) {i : Fin n} (hi : t[i].status ≠ .free) :
    t[i].id.slot = i.val := by
  obtain ⟨k, hid⟩ := h.exists_occupant hi
  rw [hid]
  exact EnvId.slot_occupant (h.slot_lt i) k

/-- Environments in different slots have different handles. -/
theorem Sound.eq_of_id_eq (h : Sound t) {i j : Fin n} (hi : t[i].status ≠ .free)
    (hj : t[j].status ≠ .free) (hid : t[i].id = t[j].id) : i = j := by
  apply Fin.ext
  rw [← h.slot_id hi, hid, h.slot_id hj]

/-! ### Statuses after a move -/

theorem live_of_running? {i : Fin n} (h : t.running? = some i) : t[i].status ≠ .free := by
  rw [(t.running?_eq_some_iff.1 h).2]
  nofun

theorem live_of_mayRun {i : Fin n} (h : t.mayRun i = true) : t[i].status ≠ .free := by
  intro hfree
  rw [mayRun, hfree] at h
  cases h

/-- Handing the processor over makes no slot free and takes none. -/
theorem free_handOver_iff {i : Fin n} (hready : t.mayRun i = true) (j : Fin n) :
    (t.handOver i)[j].status = .free ↔ t[j].status = .free := by
  by_cases hj : j = i
  · subst hj
    rw [slots_handOver_self]
    exact iff_of_false nofun (live_of_mayRun hready)
  · rw [slots_handOver_other t hj]
    split
    · rename_i hrun
      rw [(t.running?_eq_some_iff.1 hrun).2]
      exact iff_of_false nofun nofun
    · rfl

theorem id_handOver (t : EnvTable n) (i j : Fin n) :
    (t.handOver i)[j].id = t[j].id := by
  by_cases hj : j = i
  · rw [hj, slots_handOver_self]
  · rw [slots_handOver_other t hj]
    split <;> rfl

/-- Replacing registers and image changes neither handles nor states. -/
theorem slots_rewrite (t : EnvTable n) (i j : Fin n) (tf : Trapframe) (binary : Option Bytes) :
    let after := (t.modify i fun env => { env with tf, binary })[j]
    after.id = t[j].id ∧ after.status = t[j].status ∧ after.runs = t[j].runs := by
  by_cases hj : j = i
  · subst hj
    simp only [slots_modify_self, and_self]
  · simp only [slots_modify_other t _ hj, and_self]

/-! ### The invariants -/

theorem Fresh.sound {config : Config} (h : Fresh config t) : Sound t where
  toLinked := h.linked
  capacity := h.capacity
  room := h.config_eq ▸ h.room
  numbered i := ⟨0, by rw [h.slots_eq]; rfl, fun _ => by rw [h.slots_eq]⟩

theorem Fresh.scheduled {config : Config} (h : Fresh config t) : Scheduled t where
  active i := .inl (by rw [h.slots_eq])
  current_of_running i hi := by
    rw [h.slots_eq] at hi
    cases hi

/-- Handing out the first free slot takes it off the list. -/
theorem Linked.take (h : Linked t) {i : Fin n} (hhead : t.freeHead = some i) {env : Environment}
    (henv : env.status ≠ .free) : Linked (t.take i env) := by
  obtain ⟨hlist, hchain⟩ := h.freeList_take hhead env
  have hnodup := h.nodup
  rw [hlist] at hnodup
  obtain ⟨hi, hnodup⟩ := List.nodup_cons.1 hnodup
  refine ⟨hchain, hnodup, fun j => ?_, fun j hj => ?_⟩
  · by_cases hji : j = i
    · subst hji
      rw [slots_take_self]
      exact iff_of_false hi henv
    · rw [slots_take_other t _ hji, ← h.mem_iff j, hlist, List.mem_cons]
      exact ⟨.inr, fun hor => hor.resolve_left hji⟩
  · by_cases hji : j = i
    · rw [hji, link_take_self]
    · rw [slots_take_other t _ hji] at hj
      rw [link_take_other t _ hji]
      exact h.unlinked j hj

/-- A slot that is given back is in front of the list. -/
theorem Linked.giveBack (h : Linked t) {i : Fin n} (hi : t[i].status ≠ .free) :
    Linked (t.giveBack i) := by
  obtain ⟨hlist, hchain⟩ := h.freeList_giveBack hi
  have hnew : i ∉ t.freeList := fun hmem => hi ((h.mem_iff i).1 hmem)
  refine ⟨hlist ▸ hchain, hlist ▸ List.nodup_cons.2 ⟨hnew, h.nodup⟩, fun j => ?_, fun j hj => ?_⟩
  · rw [hlist, List.mem_cons]
    by_cases hji : j = i
    · subst hji
      rw [slots_giveBack_self]
      exact iff_of_true (.inl rfl) rfl
    · rw [slots_giveBack_other t hji, ← h.mem_iff j]
      exact ⟨fun hor => hor.resolve_left hji, .inr⟩
  · by_cases hji : j = i
    · subst hji
      rw [slots_giveBack_self] at hj
      exact absurd rfl hj
    · rw [slots_giveBack_other t hji] at hj
      rw [link_giveBack_other t hji]
      exact h.unlinked j hj

/-- A change that touches neither the links nor which slots are free. -/
theorem Linked.congr (h : Linked t) (hlink : u.link = t.link) (hhead : u.freeHead = t.freeHead)
    (hfree : ∀ i : Fin n, u[i].status = .free ↔ t[i].status = .free) : Linked u := by
  have hlist := freeList_congr hlink hhead
  refine ⟨?_, hlist ▸ h.nodup, fun i => ?_, fun i hi => ?_⟩
  · rw [hlist, hlink, hhead]
    exact h.chain
  · rw [hlist, hfree]
    exact h.mem_iff i
  · rw [hlink]
    exact h.unlinked i ((hfree i).not.1 hi)

theorem Linked.move (h : Linked t) (hm : Move t done u) : Linked u := by
  cases hm with
  | take i parent kind head top => exact h.take head nofun
  | giveBack i live => exact h.giveBack live
  | rewrite i tf binary live =>
    refine h.congr rfl rfl fun j => ?_
    rw [(slots_rewrite t i j tf binary).2.1]
  | handOver i ready =>
    exact h.congr (t.link_handOver i) (t.freeHead_handOver i) (free_handOver_iff ready)

/-- A slot that was handed out holds the handle of its next occupant. -/
theorem Sound.numbered_move (h : Sound t) (hm : Move t done u) (j : Fin n) :
    ∃ k, u[j].id = .occupant j k ∧ (k = 0 → u[j].status = .free) := by
  obtain ⟨k, hid, hzero⟩ := h.numbered j
  cases hm.fate j with
  | kept env_eq =>
    rw [env_eq]
    exact ⟨k, hid, hzero⟩
  | demoted env_eq _ running =>
    rw [env_eq]
    exact ⟨k, hid, fun hk => absurd (hzero hk) (live_of_running? running)⟩
  | taken parent kind rsp env_eq =>
    rw [env_eq]
    refine ⟨k + 1, ?_, fun h => absurd h (Nat.succ_ne_zero k)⟩
    rw [EnvId.occupant, ← hid, newcomer]
  | givenBack env_eq =>
    rw [env_eq]
    exact ⟨k, hid, fun _ => rfl⟩
  | rewritten tf binary env_eq =>
    rw [env_eq]
    exact ⟨k, hid, hzero⟩
  | selected env_eq _ ready =>
    rw [env_eq]
    exact ⟨k, hid, fun hk => absurd (hzero hk) (live_of_mayRun ready)⟩

theorem config_move (hm : Move t done u) : u.config = t.config := by
  cases hm with
  | take | giveBack | rewrite => rfl
  | handOver => exact t.config_handOver _

theorem Sound.move (h : Sound t) (hm : Move t done u) : Sound u where
  toLinked := h.toLinked.move hm
  capacity := h.capacity
  room := config_move hm ▸ h.room
  numbered := h.numbered_move hm

theorem Scheduled.move (h : Scheduled t) (hm : Move t done u) : Scheduled u := by
  constructor
  · intro j
    cases hm.fate j with
    | kept env_eq => exact env_eq ▸ h.active j
    | demoted env_eq | taken _ _ _ env_eq =>
      rw [env_eq]
      exact .inr (.inl rfl)
    | givenBack env_eq =>
      rw [env_eq]
      exact .inl rfl
    | rewritten tf binary env_eq =>
      rw [env_eq]
      exact h.active j
    | selected env_eq =>
      rw [env_eq]
      exact .inr (.inr rfl)
  · intro j hrun
    cases hm.fate j with
    | kept env_eq _ current_eq =>
      rw [env_eq] at hrun
      have hcurrent := h.current_of_running j hrun
      rw [current_eq (t.running?_eq_some_iff.2 ⟨hcurrent, hrun⟩), hcurrent]
    | demoted env_eq | taken _ _ _ env_eq | givenBack env_eq =>
      rw [env_eq] at hrun
      cases hrun
    | rewritten tf binary env_eq _ _ current_eq =>
      rw [env_eq] at hrun
      rw [current_eq, h.current_of_running j hrun]
    | selected _ _ _ current_eq => exact current_eq

theorem Sound.moves (h : Sound t) (hm : Moves t done u) : Sound u := hm.preserves h Sound.move

theorem Scheduled.moves (h : Scheduled t) (hm : Moves t done u) : Scheduled u :=
  hm.preserves h Scheduled.move

end EnvKernel.Env.EnvTable
