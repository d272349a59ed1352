import EnvKernel.Proofs.Table.Next
import EnvKernel.Proofs.Table.Run
import Mathlib.Data.List.Rotate

/-!
Turns, given to one environment after the other. `rotation` lists the live slots in the order in which the
next environment is looked for: around the table, beginning behind the current slot. A turn goes to the first
of them, which is the last one from then on (`giveTurn_eq`, `rotation_handOver`), so that as many turns as
there are environments give each of them one: `fair_run` is the main statement. That the current slot
was given back, or handed out again, does not matter, since only its place counts.
-/

namespace EnvKernel.Env.EnvTable

variable {n : Nat} {t : EnvTable n} {i j : Fin n} {order rest : List (Fin n)}

/-- The first slot where the next environment is looked for: the one behind the current slot. -/
def searchStart (t : EnvTable n) : Nat :=
  match t.current with
  | none => 0
  | some i => i.val + 1

/-- How many slots are looked at before slot `i`, going around the table. -/
def distance (t : EnvTable n) (i : Fin n) : Nat := (i.val + (n - t.searchStart)) % n

/-- The live slots in the order in which the next environment is looked for. -/
def rotation (t : EnvTable n) : List (Fin n) := t.scanOrder.filter fun i => t[i].status != .free

/-- Gives the processor to the next environment, if there is one, and tells its handle. -/
def giveTurn : Action (EnvTable n) EnvError (Option EnvId) := do
  let t ← Action.state
  match t.nextRunnable with
  | none => return none
  | some id =>
    let _ ← switchTo id
    return some id

/-- Gives `k` turns, or as many as there is a next environment for, and tells who had them. -/
def giveTurns : Nat → Action (EnvTable n) EnvError (List EnvId)
  | 0 => return []
  | k + 1 => do
    match ← giveTurn with
    | none => return []
    | some id =>
      let others ← giveTurns k
      return id :: others

/-! ### The order of the search -/

theorem searchStart_le (t : EnvTable n) : t.searchStart ≤ n := by
  unfold searchStart
  split
  · exact Nat.zero_le n
  · rename_i i _
    exact i.isLt

theorem scanOrder_eq (t : EnvTable n) : t.scanOrder = (List.finRange n).rotate t.searchStart := by
  rw [List.rotate_eq_drop_append_take (by simpa using t.searchStart_le)]
  rfl

theorem getElem_scanOrder {k : Nat} (hk : k < t.scanOrder.length) :
    (t.scanOrder[k] : Nat) = (k + t.searchStart) % n := by
  simp [scanOrder_eq, List.getElem_rotate]

/-- The slot number `k` of the search has the distance `k`. -/
theorem distance_getElem {k : Nat} (hk : k < t.scanOrder.length) : t.distance t.scanOrder[k] = k := by
  have hlen : k < n := by simpa [scanOrder_eq] using hk
  have hstart := t.searchStart_le
  rw [distance, getElem_scanOrder, Nat.mod_add_mod, Nat.add_assoc, Nat.add_sub_cancel' hstart,
    Nat.add_mod_right, Nat.mod_eq_of_lt hlen]

theorem pairwise_rotation (t : EnvTable n) : t.rotation.Pairwise fun i j => t.distance i < t.distance j := by
  refine List.Pairwise.filter _ (List.pairwise_iff_getElem.2 fun a b ha hb hab => ?_)
  rwa [distance_getElem ha, distance_getElem hb]

theorem mem_rotation_iff : i ∈ t.rotation ↔ t[i].status ≠ .free := by
  rw [rotation, List.mem_filter, bne_iff_ne]
  exact and_iff_right (t.mem_scanOrder i)

theorem nodup_rotation (t : EnvTable n) : t.rotation.Nodup := by
  refine t.pairwise_rotation.imp ?_
  rintro i j hlt rfl
  exact Nat.lt_irrefl _ hlt

theorem length_rotation (t : EnvTable n) : t.rotation.length = t.live.length := by
  have hlive : t.rotation.Perm ((List.finRange n).filter fun i => t[i].status != .free) := by
    rw [rotation, scanOrder_eq]
    exact (List.rotate_perm _ _).filter _
  rw [live_eq, List.length_map, hlive.length_eq]

/-- The current slot is looked at last. -/
theorem rotation_of_current (h : t.rotation = i :: rest) (hi : t.current = some i) : rest = [] := by
  rw [List.eq_nil_iff_forall_not_mem]
  intro j hj
  have hlt := (List.pairwise_cons.1 (h ▸ t.pairwise_rotation)).1 j hj
  have hpos := i.isLt
  have hbehind : t.distance j < n := Nat.mod_lt _ (Nat.zero_lt_of_lt hpos)
  have hlast : t.distance i = n - 1 := by
    rw [distance, searchStart, hi, show i.val + (n - (i.val + 1)) = n - 1 by omega]
    exact Nat.mod_eq_of_lt (by omega)
  omega

/-! ### One turn -/

/-- The next environment is the first in the order of the search. It is the running one only if no other is
live. -/
theorem Scheduled.nextRunnable_eq (hs : Scheduled t) (h : t.rotation = i :: rest) :
    t.nextRunnable = some t[i].id := by
  obtain ⟨before, after, hscan, hbefore, hlive, -⟩ := List.filter_eq_cons_iff.1 h
  rw [nextRunnable]
  rcases hs.active i with hi | hi | hi
  · rw [hi] at hlive
    cases hlive
  · have hfind : t.scanOrder.find? (fun i => t[i].status == .runnable) = some i := by
      rw [List.find?_eq_some_iff_append]
      refine ⟨by rw [hi]; rfl, before, after, hscan, fun j hj => ?_⟩
      have hfree : t[j].status = .free := by simpa using hbefore j hj
      rw [hfree]
      rfl
    rw [hfind]
  · have hcurrent := hs.current_of_running i hi
    have hrest := rotation_of_current h hcurrent
    have hfind : t.scanOrder.find? (fun i => t[i].status == .runnable) = none := by
      rw [List.find?_eq_none]
      intro j _ hj
      have hmem : j ∈ t.rotation := mem_rotation_iff.2 (by rw [beq_iff_eq.1 hj]; decide)
      rw [h, hrest, List.mem_singleton] at hmem
      rw [hmem, hi] at hj
      cases hj
    rw [hfind, current?, t.running?_eq_some_iff.2 ⟨hcurrent, hi⟩]
    rfl

theorem rotate_finRange_congr {a b : Nat} (h : a % n = b % n) :
    (List.finRange n).rotate a = (List.finRange n).rotate b := by
  rw [← List.rotate_mod _ a, ← List.rotate_mod _ b, List.length_finRange, h]

/-- Whoever had a turn is looked at last. -/
theorem rotation_handOver (h : t.rotation = i :: rest) (hready : t.mayRun i = true) :
    (t.handOver i).rotation = rest ++ [i] := by
  obtain ⟨before, after, hscan, hbefore, hlive, hafter⟩ := List.filter_eq_cons_iff.1 h
  have hlen : before.length < t.scanOrder.length := by simp [hscan]
  have hplace : (before.length + t.searchStart) % n = i.val := by
    rw [← getElem_scanOrder hlen]
    simp [hscan]
  have hturned : (t.handOver i).scanOrder = after ++ before ++ [i] := by
    have hstart : (i.val + 1) % n = (t.searchStart + (before.length + 1)) % n := by
      rw [← hplace, Nat.mod_add_mod]
      congr 1
      omega
    have hwhole := List.rotate_append_length_eq (before ++ [i]) after
    rw [List.append_assoc, List.singleton_append, ← hscan, List.length_append,
      List.length_singleton] at hwhole
    rw [scanOrder_eq, show (t.handOver i).searchStart = i.val + 1 from rfl, rotate_finRange_congr hstart,
      ← List.rotate_rotate, ← scanOrder_eq, hwhole, List.append_assoc]
  have hsame : (fun j : Fin n => (t.handOver i)[j].status != .free) = fun j => t[j].status != .free := by
    funext j
    rw [Bool.eq_iff_iff, bne_iff_ne, bne_iff_ne, Ne, free_handOver_iff hready]
  have hgone : before.filter (fun j => t[j].status != .free) = [] := List.filter_eq_nil_iff.2 hbefore
  rw [rotation, hsame, hturned, List.filter_append, List.filter_append, hafter, hgone,
    List.append_nil]
  simp [hlive]

/-! ### Turns in a row -/

/-- A turn goes to the first environment in the order of the search, and nothing stops the kernel. -/
theorem giveTurn_eq (h : Sound t) (hs : Scheduled t) (hfirst : t.rotation = i :: rest) :
    giveTurn t = { outcome := .ok (some t[i].id), state := t.handOver i } := by
  have hlive : t[i].status ≠ .free := mem_rotation_iff.1 (hfirst ▸ List.mem_cons_self)
  have hswitch := hs.switchTo_eq (h.resolveEnv_id hlive)
  rw [giveTurn, Action.bind_state_apply, hs.nextRunnable_eq hfirst]
  simp only [Action.bind_of_ok hswitch]
  rfl

/-- The first environments in the order of the search have the first turns. -/
theorem giveTurns_eq (h : Sound t) (hs : Scheduled t) (hfirst : t.rotation = order ++ rest) :
    giveTurns order.length t =
      { outcome := .ok (order.map fun i => t[i].id), state := order.foldl handOver t } := by
  induction order generalizing t rest with
  | nil => rfl
  | cons i order ih =>
    rw [List.cons_append] at hfirst
    have hready : t.mayRun i = true := hs.mayRun (mem_rotation_iff.1 (hfirst ▸ List.mem_cons_self))
    have hmove := Move.handOver i hready
    have hnext : (t.handOver i).rotation = order ++ (rest ++ [i]) := by
      rw [rotation_handOver hfirst hready, List.append_assoc]
    rw [List.length_cons, giveTurns, Action.bind_of_ok (giveTurn_eq h hs hfirst)]
    simp only [Action.bind_of_ok (ih (h.move hmove) (hs.move hmove) hnext), id_handOver]
    rfl

/-- Each of the environments had one turn more, and nobody else. -/
theorem runs_foldl_handOver (hnodup : order.Nodup) (j : Fin n) :
    (order.foldl handOver t)[j].runs = t[j].runs + if j ∈ order then 1 else 0 := by
  induction order generalizing t with
  | nil => simp
  | cons i order ih =>
    obtain ⟨hnew, hnodup⟩ := List.nodup_cons.1 hnodup
    rw [List.foldl_cons, ih hnodup]
    by_cases hj : j = i
    · rw [hj, slots_handOver_self, if_neg hnew, if_pos List.mem_cons_self]
      simp
    · rw [slots_handOver_other t hj]
      simp only [List.mem_cons, hj, false_or]
      split <;> rfl

/-- Who has the next turns in table `t`. -/
structure Fair (t : EnvTable n) : Prop where
  next_eq_none_iff : t.nextRunnable = none ↔ t.live = []
  /-- As many turns as there are environments all succeed. Each environment has one of them, those in the
  slots behind the current one first, and then around the table. -/
  round : ∃ order : List (Fin n), (∀ i, i ∈ order ↔ t[i].status ≠ .free) ∧
    order.Pairwise (fun i j => t.distance i < t.distance j) ∧
    ∃ u, giveTurns t.live.length t = { outcome := .ok (order.map fun i => t[i].id), state := u } ∧
      ∀ i : Fin n, u[i].runs = t[i].runs + if t[i].status ≠ .free then 1 else 0

theorem Sound.fair (h : Sound t) (hs : Scheduled t) : Fair t where
  next_eq_none_iff := hs.nextRunnable_eq_none_iff
  round := by
    refine ⟨t.rotation, fun i => mem_rotation_iff, t.pairwise_rotation, t.rotation.foldl handOver t, ?_,
      fun i => ?_⟩
    · rw [← length_rotation]
      exact giveTurns_eq h hs (List.append_nil _).symm
    · rw [runs_foldl_handOver t.nodup_rotation]
      simp only [mem_rotation_iff]

/-- After any run of a fresh table as many turns as there are environments go around, one to each. -/
theorem fair_run {config : Config} {t : EnvTable n} (h : new n config = .ok t) (ops : List Op) :
    Fair (t.run ops) := by
  have hfresh := fresh_of_new h
  exact (hfresh.sound.run ops).fair (hfresh.scheduled.moves (hfresh.sound.moves_run ops))

/-- The running environment gives itself up and its slot, still the current one, is handed out again: its new
occupant has the last turn. -/
theorem fair_run_again : ∃ t : EnvTable 4, new 4 (.userSpace ⟨8, 16⟩ ⟨27, 35⟩) = .ok t ∧
    let u := t.run [.alloc .none .user, .alloc .none .user, .alloc .none .user, .switchTo ⟨0x1001⟩,
      .free .none, .alloc .none .user]
    u.current = some 1 ∧ u[(1 : Fin 4)].id = ⟨0x2001⟩ ∧
      (giveTurns 3 u).outcome = .ok [⟨0x1002⟩, ⟨0x1000⟩, ⟨0x2001⟩] ∧ Fair u := by
  obtain ⟨t, h⟩ : ∃ t : EnvTable 4, new 4 (.userSpace ⟨8, 16⟩ ⟨27, 35⟩) = .ok t := ⟨_, rfl⟩
  refine ⟨t, h, ?_, ?_, ?_, fair_run h _⟩
  all_goals
    cases h
    decide

end EnvKernel.Env.EnvTable
