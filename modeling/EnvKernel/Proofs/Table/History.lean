import EnvKernel.Proofs.Table.Run

/-!
The handles that were given out for a slot. After any run they are the first occupants of the slot in
order, and the slot holds the last of them.
-/

namespace EnvKernel.Env

variable {n : Nat}

/-- The handle under which slot `i` was handed out. -/
def Event.handle? (i : Fin n) : Event n → Option EnvId
  | .issued j id => if j = i then some id else none
  | _ => none

/-- All handles of slot `i`, in the order in which they were given out. -/
def handles (i : Fin n) (past : List (Event n)) : List EnvId := past.filterMap (Event.handle? i)

theorem handles_append (i : Fin n) (past done : List (Event n)) :
    handles i (past ++ done) = handles i past ++ handles i done :=
  List.filterMap_append

theorem mem_handles_iff {i : Fin n} {past : List (Event n)} {id : EnvId} :
    id ∈ handles i past ↔ .issued i id ∈ past := by
  rw [handles, List.mem_filterMap]
  constructor
  · rintro ⟨e, he, hid⟩
    cases e with
    | issued j id' =>
      simp only [Event.handle?] at hid
      split at hid
      · rename_i hj
        cases hid
        exact hj ▸ he
      · cases hid
    | freed | selected => cases hid
  · intro h
    exact ⟨_, h, by simp [Event.handle?]⟩

/-- A slot to which nothing happened was not handed out. -/
theorem handles_of_others {i : Fin n} {past : List (Event n)} (h : ∀ e ∈ past, e.slot ≠ i) :
    handles i past = [] := by
  rw [handles, List.filterMap_eq_nil_iff]
  intro e he
  cases e with
  | issued j id => exact if_neg (h _ he)
  | freed | selected => rfl

namespace EnvTable

variable {t u : EnvTable n} {past done : List (Event n)}

/-- The handles of every slot are its first occupants, and the slot holds the last one. -/
def Numbered (past : List (Event n)) (t : EnvTable n) : Prop :=
  ∀ i : Fin n, t[i].id = .occupant i (handles i past).length ∧
    handles i past = (List.range (handles i past).length).map fun k => .occupant i (k + 1)

theorem Numbered.move (h : Numbered past t) (hm : Move t done u) : Numbered (past ++ done) u := by
  intro j
  obtain ⟨hid, hall⟩ := h j
  rw [handles_append]
  cases hm.fate j with
  | kept env_eq others | demoted env_eq others =>
    rw [handles_of_others others, List.append_nil, env_eq]
    exact ⟨hid, hall⟩
  | taken parent kind rsp env_eq done_eq =>
    have hnew : handles j done = [.occupant j ((handles j past).length + 1)] := by
      rw [done_eq, EnvId.occupant, ← hid]
      simp [handles, Event.handle?]
    rw [env_eq, hnew, List.length_append, List.length_singleton, List.range_succ, List.map_append,
      ← hall]
    exact ⟨by rw [newcomer, hid, EnvId.occupant], rfl⟩
  | givenBack env_eq done_eq | rewritten _ _ env_eq done_eq | selected env_eq done_eq =>
    have hnew : handles j done = [] := by rw [done_eq]; rfl
    rw [hnew, List.append_nil, env_eq]
    exact ⟨hid, hall⟩

/-- A slot without a handle was never handed out, and every other handle names its own slot. -/
theorem Sound.handle_cases (h : Sound t) (hn : Numbered past t) (i : Fin n) :
    (t[i].id = .none ∧ t[i].status = .free ∧ ∀ id, .issued i id ∉ past) ∨
      (0 < t[i].id.raw ∧ t[i].id.slot = i.val) := by
  obtain ⟨hid, -⟩ := hn i
  cases hk : (handles i past).length with
  | zero =>
    rw [hk] at hid
    refine .inl ⟨hid, ?_, fun id hmem => ?_⟩
    · by_contra hlive
      refine EnvId.raw_ne_zero (h.raw_pos hlive) ?_
      rw [hid]
      rfl
    · have hhandle := mem_handles_iff.2 hmem
      rw [List.length_eq_zero_iff.1 hk] at hhandle
      cases hhandle
  | succ k =>
    rw [hk] at hid
    rw [hid]
    exact .inr ⟨EnvId.raw_occupant_pos (h.slot_lt i) k, EnvId.slot_occupant (h.slot_lt i) k⟩

theorem Fresh.numbered {config : Config} (h : Fresh config t) : Numbered [] t := fun i => by
  rw [h.slots_eq]
  exact ⟨rfl, rfl⟩

/-- What holds of a fresh table, and of the history of a table with every move, holds after every run
of a fresh table. -/
theorem Fresh.induct {config : Config} {P : List (Event n) → EnvTable n → Prop}
    (h : Fresh config t) (base : P [] t)
    (step : ∀ {past done u v}, Sound u → P past u → Move u done v → P (past ++ done) v)
    (ops : List Op) : P (t.history ops) (t.run ops) := by
  have hall := (h.sound.moves_run ops).accumulates (P := fun past u => Sound u ∧ P past u)
    ⟨h.sound, base⟩ fun ⟨hsound, hp⟩ hm => ⟨hsound.move hm, step hsound hp hm⟩
  exact hall.2

theorem Fresh.numbered_run {config : Config} (h : Fresh config t) (ops : List Op) :
    Numbered (t.history ops) (t.run ops) :=
  h.induct h.numbered (fun _ hp hm => hp.move hm) ops

end EnvTable

end EnvKernel.Env
