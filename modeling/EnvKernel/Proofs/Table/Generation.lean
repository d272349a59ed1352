import EnvKernel.Proofs.Table.History

/-!
Stale handles over whole runs. `window_run` is the main statement: a handle is refused by every operation
that looks it up exactly while its slot is free or has been handed out anew a number of times that is no
multiple of the number of generations. The generations of a slot count up from one and around, and as many
occupants in a row as there are generations have different handles.
-/

namespace EnvKernel.Env.EnvTable

open EnvId (occupant generations)

variable {n : Nat} {t : EnvTable n} {id : EnvId} {i : Fin n}

/-- Whatever looks the handle up refuses it and changes nothing. -/
structure Refused (id : EnvId) (t : EnvTable n) : Prop where
  get : ∀ check, t.get id check = .error (.badHandle id)
  getModify : ∀ check f, getModify id check f t = Action.fail (.badHandle id) t
  free : free id t = Action.fail (.badHandle id) t
  switchTo : switchTo id t = Action.fail (.badHandle id) t
  stackRegion : stackRegion id t = Action.fail (.badHandle id) t

theorem refused_of_resolve (h : ∀ check, t.resolve id check = .error (.badHandle id)) :
    Refused id t := by
  have henv := resolveEnv_of_error (h false)
  exact {
    get := fun check => by rw [get, h check]; rfl
    getModify := fun check f => by simp only [EnvTable.getModify, h check]
    free := free_of_error henv
    switchTo := switchTo_of_error henv
    stackRegion := by simp only [EnvTable.stackRegion, henv] }

/-- In a sound table the handle of an occupant is refused unless the slot is live and holds it. -/
theorem Sound.refused_iff (h : Sound t) (i : Fin n) (k : Nat) :
    Refused (occupant i (k + 1)) t ↔ t[i].status = .free ∨ t[i].id ≠ occupant i (k + 1) := by
  constructor
  · intro hrefused
    by_contra hlive
    obtain ⟨hlive, heq⟩ := not_or.1 hlive
    have hfound := h.resolveEnv_id hlive
    rw [not_not.1 heq] at hfound
    have hfree := hrefused.free
    rw [free_of_ok hfound] at hfree
    cases congrArg Effect.outcome hfree
  · intro hstale
    refine refused_of_resolve (resolve_of_stale ?_ ?_)
    · exact EnvId.isNone_of_pos (EnvId.raw_occupant_pos (h.slot_lt i) k)
    · intro j hj
      rw [EnvId.slot_occupant (h.slot_lt i)] at hj
      exact Fin.ext hj ▸ hstale

/-- A row of occupants that is not longer than there are generations. -/
theorem nodup_occupants {slot : Nat} (hslot : slot < 4096) (start : Nat) {len : Nat}
    (hlen : len ≤ generations) :
    ((List.range' start len).map fun k => occupant slot (k + 1)).Nodup := by
  refine List.Nodup.map_on ?_ List.nodup_range'
  intro j hj k hk heq
  rw [EnvId.occupant_eq_iff hslot] at heq
  rw [List.mem_range'_1] at hj hk
  rw [generations] at *
  omega

/-- Part of a row of occupants is a row of occupants. -/
theorem eq_map_of_infix {α : Type} {f : Nat → α} {m : Nat} {w : List α}
    (h : w <:+: (List.range m).map f) : ∃ start, w = (List.range' start w.length).map f := by
  obtain ⟨front, back, heq⟩ := h
  refine ⟨front.length, ?_⟩
  have hlen := congrArg List.length heq
  rw [List.length_append, List.length_append, List.length_map, List.length_range] at hlen
  have hw : w = ((front ++ w ++ back).drop front.length).take w.length := by
    rw [List.append_assoc, List.drop_left, List.take_left]
  have hrow : ((List.range m).drop front.length).take w.length =
      List.range' front.length w.length := by
    rw [List.range_eq_range', List.drop_range', List.take_range'_of_length_ge (by omega)]
    simp
  rw [← hrow, List.map_take, List.map_drop, ← heq]
  exact hw

/-- A handle that was given out is that of an occupant, and so many occupants later the slot has that of
another one. -/
theorem Numbered.issued {past before later : List (Event n)} (h : Numbered past t)
    (hpast : past = before ++ .issued i id :: later) :
    id = occupant i ((handles i before).length + 1) ∧
      t[i].id = occupant i ((handles i before).length + (handles i later).length + 1) := by
  obtain ⟨hid, hall⟩ := h i
  have hsplit : handles i past = handles i before ++ id :: handles i later := by
    rw [hpast, handles_append]
    simp [handles, Event.handle?]
  have hlen : (handles i past).length = (handles i before).length + (handles i later).length + 1 := by
    rw [hsplit, List.length_append, List.length_cons, Nat.add_assoc]
  refine ⟨?_, hlen ▸ hid⟩
  have hget := congrArg (fun l => l[(handles i before).length]?) (hsplit.symm.trans hall)
  simp only [hlen] at hget
  rw [List.getElem?_append_right (Nat.le_refl _), Nat.sub_self, List.getElem?_cons_zero,
    List.getElem?_map, List.getElem?_range (by omega)] at hget
  exact Option.some.inj hget

/-- When the handles of slot `i` are stale. -/
structure Windowed (i : Fin n) (past : List (Event n)) (t : EnvTable n) : Prop where
  /-- A handle is refused while the slot is free, and for every number of later occupants that is no
  multiple of the number of generations. -/
  refused_iff : ∀ before id later, past = before ++ .issued i id :: later →
    (Refused id t ↔ ¬ generations ∣ (handles i later).length ∨ t[i].status = .free)
  /-- The generations go 1, 2, … up to the last and then around. -/
  generation : (handles i past).map (fun id => id.generation.toInt) =
    (List.range (handles i past).length).map fun k => ((k % generations + 1 : Nat) : Int)
  /-- As many occupants in a row as there are generations have different handles. -/
  nodup : ∀ row, row <:+: handles i past → row.length ≤ generations → row.Nodup

theorem Sound.windowed {past : List (Event n)} (h : Sound t) (hn : Numbered past t) (i : Fin n) :
    Windowed i past t := by
  have hslot := h.slot_lt i
  obtain ⟨-, hall⟩ := hn i
  refine ⟨?_, ?_, ?_⟩
  · intro before id later hpast
    obtain ⟨hold, hnow⟩ := hn.issued hpast
    rw [hold, h.refused_iff i, hnow, Ne, EnvId.occupant_eq_iff hslot, or_comm]
    refine or_congr (not_congr ?_) Iff.rfl
    rw [generations]
    omega
  · rw [hall]
    simp only [List.map_map, List.length_map, List.length_range]
    exact List.map_congr_left fun k _ => EnvId.generation_occupant hslot k
  · intro row hrow hlen
    rw [hall] at hrow
    obtain ⟨start, hstart⟩ := eq_map_of_infix hrow
    rw [hstart]
    exact nodup_occupants hslot start hlen

/-- After any run of a fresh table, which handles of a slot are stale depends only on how often the
slot was handed out since, counted around. -/
theorem window_run {config : Config} {t : EnvTable n} (h : new n config = .ok t) (ops : List Op)
    (i : Fin n) : Windowed i (t.history ops) (t.run ops) := by
  have hfresh := fresh_of_new h
  exact (hfresh.sound.run ops).windowed (hfresh.numbered_run ops) i

/-- The first handle of the first slot is stale once the slot has its second occupant. -/
theorem window_run_reuse : ∃ t : EnvTable 2,
    new 2 (.userSpace ⟨8, 16⟩ ⟨27, 35⟩) = .ok t ∧
      Refused ⟨0x1000⟩ (t.run [.alloc .none .user, .free ⟨0x1000⟩, .alloc .none .user]) := by
  obtain ⟨t, h⟩ : ∃ t : EnvTable 2, new 2 (.userSpace ⟨8, 16⟩ ⟨27, 35⟩) = .ok t := ⟨_, rfl⟩
  refine ⟨t, h, ((window_run h _ 0).refused_iff [] ⟨0x1000⟩ [.freed 0, .issued 0 ⟨0x2000⟩] ?_).2 ?_⟩
  · cases h
    rfl
  · exact .inl (by decide)

end EnvKernel.Env.EnvTable
