import EnvKernel.Proofs.Table.History

/-!
The free list over whole runs. `represented_run` is the main statement: after any operations the links
lead through exactly the free slots and end, the slots hold handles of their own, and the list of
free slots is what a stack would hold that began with all slots in order, gave its top for every slot
handed out and got back every slot that was given back.
-/

namespace EnvKernel.Env

variable {n : Nat}

/-- A stack of slots after what happened to a slot: the top is handed out, and what is given back is the
new top. -/
def Event.onStack (slots : List (Fin n)) : Event n → List (Fin n)
  | .issued _ _ => slots.tail
  | .freed i => i :: slots
  | .selected _ => slots

namespace EnvTable

variable {t u : EnvTable n} {done : List (Event n)}

/-! ### Free and live slots -/

/-- Every slot is free or live. -/
theorem Linked.freeCount_add_length_live (h : Linked t) : t.freeCount + t.live.length = n := by
  have hfree : t.freeList.Perm ((List.finRange n).filter fun i => t[i].status == .free) := by
    rw [List.perm_ext_iff_of_nodup h.nodup ((List.nodup_finRange n).filter _)]
    intro i
    simp only [h.mem_iff, List.mem_filter, List.mem_finRange, true_and, beq_iff_eq]
  rw [freeCount, hfree.length_eq, live_eq, List.length_map, ← List.countP_eq_length_filter,
    ← List.countP_eq_length_filter]
  have hall := List.length_eq_countP_add_countP (fun i : Fin n => t[i].status == .free)
    (l := List.finRange n)
  rw [List.length_finRange] at hall
  refine Eq.trans ?_ hall.symm
  rw [Nat.add_left_cancel_iff]
  exact List.countP_congr fun i _ => by simp

theorem Sound.nodup_live (h : Sound t) : (t.live.map (·.id)).Nodup := by
  rw [live_eq, List.map_map]
  refine List.Nodup.map_on ?_ ((List.nodup_finRange n).filter _)
  intro i hi j hj hid
  simp only [List.mem_filter, bne_iff_ne] at hi hj
  exact h.eq_of_id_eq hi.2 hj.2 hid

/-! ### The list as a stack -/

theorem freeList_move (h : Linked t) (hm : Move t done u) :
    u.freeList = done.foldl Event.onStack t.freeList := by
  cases hm with
  | take i parent kind head top =>
    rw [(h.freeList_take head (t.newcomer i parent kind _)).1]
    rfl
  | giveBack i live => exact (h.freeList_giveBack live).1
  | rewrite i tf binary live => exact t.freeList_modify i _
  | handOver i ready => exact t.freeList_handOver i

theorem Sound.freeList_run (h : Sound t) (ops : List Op) :
    (t.run ops).freeList = (t.history ops).foldl Event.onStack t.freeList := by
  have hall := (h.moves_run ops).accumulates
    (P := fun past u => Sound u ∧ u.freeList = past.foldl Event.onStack t.freeList)
    ⟨h, rfl⟩
    (fun ⟨hsound, hlist⟩ hm => ⟨hsound.move hm, by
      rw [freeList_move hsound.toLinked hm, hlist, List.foldl_append]⟩)
  exact hall.2

/-- Handing out a slot takes the top of the stack, and there has to be one. -/
theorem Sound.alloc_top (h : Sound t) {i : Fin n} {rest : List (Fin n)} (hlist : t.freeList = i :: rest)
    (parent : EnvId) (kind : Kind) : ∃ id u, alloc parent kind t = { outcome := .ok id, state := u } ∧
      id.slot = i.val ∧ u[i].id = id ∧ u.freeList = rest := by
  have hhead : t.freeHead = some i := by rw [h.head_eq, hlist, List.head?_cons]
  obtain ⟨rsp, hrsp⟩ := h.exists_stackTop i
  refine ⟨_, _, alloc_of_head hhead hrsp parent kind, ?_, ?_, ?_⟩
  · obtain ⟨k, hid, -⟩ := h.numbered i
    rw [hid]
    exact EnvId.slot_occupant (h.slot_lt i) k
  · rw [slots_take_self]
    rfl
  · rw [(h.freeList_take hhead (t.newcomer i parent kind rsp)).1, List.cons.injEq] at hlist
    exact hlist.2

/-- What a table is after what happened to its slots. -/
structure Represented (past : List (Event n)) (t : EnvTable n) : Prop where
  /-- The links from the first free slot on visit the list of free slots, and end. -/
  chain : Chain t.link t.freeHead t.freeList
  nodup : t.freeList.Nodup
  mem_iff : ∀ i : Fin n, i ∈ t.freeList ↔ t[i].status = .free
  unlinked : ∀ i : Fin n, t[i].status ≠ .free → t.link i = none
  /-- A slot without a handle was never handed out, and every other handle names its own slot. -/
  handle : ∀ i : Fin n,
    (t[i].id = .none ∧ t[i].status = .free ∧ ∀ id, .issued i id ∉ past) ∨
      (0 < t[i].id.raw ∧ t[i].id.slot = i.val)
  distinct : (t.live.map (·.id)).Nodup
  nonzero : ∀ env ∈ t.live, env.id.raw ≠ 0
  count : t.freeCount = n - t.live.length
  stack : t.freeList = past.foldl Event.onStack (List.finRange n)
  alloc_empty : t.freeList = [] → ∀ parent kind, alloc parent kind t = Action.fail .noFreeSlots t
  alloc_top : ∀ i rest, t.freeList = i :: rest → ∀ parent kind, ∃ id u,
    alloc parent kind t = { outcome := .ok id, state := u } ∧
      id.slot = i.val ∧ u[i].id = id ∧ u.freeList = rest
  free_ok : ∀ id i, t.resolveEnv id = .ok i → ∃ u,
    free id t = { outcome := .ok (), state := u } ∧ u.freeList = i :: t.freeList
  free_refused : ∀ id e, t.resolveEnv id = .error e → free id t = Action.fail (.badHandle id) t

/-- After any run of a fresh table the free list is the stack of exactly the free slots, and handles
are the slots' own. -/
theorem represented_run {config : Config} {t : EnvTable n} (h : new n config = .ok t)
    (ops : List Op) : Represented (t.history ops) (t.run ops) := by
  have hfresh := fresh_of_new h
  have hsound := hfresh.sound.run ops
  exact {
    chain := hsound.chain
    nodup := hsound.nodup
    mem_iff := hsound.mem_iff
    unlinked := hsound.unlinked
    handle := hsound.handle_cases (hfresh.numbered_run ops)
    distinct := hsound.nodup_live
    nonzero := fun env henv => by
      obtain ⟨i, hlive, rfl⟩ := mem_live_iff.1 henv
      exact EnvId.raw_ne_zero (hsound.raw_pos hlive)
    count := Nat.eq_sub_of_add_eq hsound.freeCount_add_length_live
    stack := by rw [hfresh.sound.freeList_run ops, hfresh.freeList_eq]
    alloc_empty := fun hlist parent kind =>
      alloc_of_empty (by rw [hsound.head_eq, hlist, List.head?_nil]) parent kind
    alloc_top := fun i rest hlist => hsound.alloc_top hlist
    free_ok := fun id i hid => ⟨_, free_of_ok hid, (hsound.freeList_giveBack (live_of_resolveEnv hid)).1⟩
    free_refused := fun id e hid => by
      rw [free_of_error hid, resolveEnv_eq_error hid] }

/-- A table of two slots, of which the second is given back while it runs and is handed out again. -/
theorem represented_run_pair : ∃ t : EnvTable 2,
    new 2 (.userSpace ⟨8, 16⟩ ⟨27, 35⟩) = .ok t ∧
      Represented (t.history [.alloc .none .user, .alloc .none .user, .switchTo ⟨0x1001⟩, .free .none,
        .free ⟨0x1001⟩, .alloc ⟨0x1000⟩ .kernel])
        (t.run [.alloc .none .user, .alloc .none .user, .switchTo ⟨0x1001⟩, .free .none,
          .free ⟨0x1001⟩, .alloc ⟨0x1000⟩ .kernel]) := by
  obtain ⟨t, h⟩ : ∃ t : EnvTable 2, new 2 (.userSpace ⟨8, 16⟩ ⟨27, 35⟩) = .ok t := ⟨_, rfl⟩
  exact ⟨t, h, represented_run h _⟩

end EnvTable

end EnvKernel.Env
