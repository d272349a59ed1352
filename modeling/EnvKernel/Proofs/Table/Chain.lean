import EnvKernel.Proofs.Table.Move
import Mathlib.Data.Fintype.Card

/-!
The list of free slots. `Chain` says that following the links from a slot visits the given slots and
comes to an end, without a bound on the number of steps; `freeList_eq` says that the bounded walk of
`freeList` sees all of such a chain. The lemmas at the end give the list of free slots after each
kind of change.
-/

namespace EnvKernel.Env.EnvTable

variable {n : Nat}

/-- Following the links from `head` visits the slots of the list, in order, and ends. -/
def Chain (link : Fin n → Option (Fin n)) : Option (Fin n) → List (Fin n) → Prop
  | head, [] => head = none
  | head, i :: l => head = some i ∧ Chain link (link i) l

/-- A chain depends only on the links of its own slots. -/
theorem Chain.congr {f g : Fin n → Option (Fin n)} :
    ∀ {head : Option (Fin n)} {l : List (Fin n)}, Chain f head l → (∀ i ∈ l, g i = f i) →
      Chain g head l
  | _, [], h, _ => h
  | _, i :: l, ⟨hhead, hrest⟩, hl => by
    refine ⟨hhead, ?_⟩
    rw [hl i List.mem_cons_self]
    exact hrest.congr fun j hj => hl j (List.mem_cons_of_mem _ hj)

theorem follow_eq {t : EnvTable n} : ∀ {steps : Nat} {head : Option (Fin n)} {l : List (Fin n)},
    Chain t.link head l → l.length ≤ steps → t.follow steps head = l
  | 0, _, l, _, hlen => by
    rw [List.length_eq_zero_iff.1 (Nat.le_zero.1 hlen), follow]
  | steps + 1, head, [], h, _ => by
    rw [Chain] at h
    rw [h, follow]
    exact Nat.succ_ne_zero _
  | steps + 1, head, i :: l, ⟨hhead, hrest⟩, hlen => by
    rw [hhead, follow, follow_eq hrest (Nat.le_of_succ_le_succ hlen)]

theorem length_le_of_nodup {l : List (Fin n)} (h : l.Nodup) : l.length ≤ n := by
  simpa using h.length_le_card

/-- The bounded walk sees all of a chain that visits no slot twice. -/
theorem freeList_eq {t : EnvTable n} {l : List (Fin n)} (h : Chain t.link t.freeHead l)
    (hl : l.Nodup) : t.freeList = l :=
  follow_eq h (length_le_of_nodup hl)

theorem freeList_congr {t u : EnvTable n} (hlink : u.link = t.link)
    (hhead : u.freeHead = t.freeHead) : u.freeList = t.freeList := by
  have hfollow : ∀ steps head, u.follow steps head = t.follow steps head := by
    intro steps
    induction steps with
    | zero => intro head; rw [follow, follow]
    | succ steps ih =>
      rintro (- | i)
      · rfl
      · rw [follow, follow, ih, hlink]
  rw [freeList, freeList, hhead, hfollow]

/-- The links are those of a list of exactly the free slots. -/
structure Linked (t : EnvTable n) : Prop where
  chain : Chain t.link t.freeHead t.freeList
  nodup : t.freeList.Nodup
  mem_iff : ∀ i : Fin n, i ∈ t.freeList ↔ t[i].status = .free
  unlinked : ∀ i : Fin n, t[i].status ≠ .free → t.link i = none

theorem Linked.head_eq {t : EnvTable n} (h : Linked t) : t.freeHead = t.freeList.head? := by
  have hchain := h.chain
  cases hl : t.freeList with
  | nil => rw [hl] at hchain; exact hchain
  | cons i rest => rw [hl] at hchain; exact hchain.1

/-- The first slot of the free list is free. -/
theorem Linked.free_of_head {t : EnvTable n} {i : Fin n} (h : Linked t) (hhead : t.freeHead = some i) :
    t[i].status = .free := by
  rw [h.head_eq] at hhead
  exact (h.mem_iff i).1 (List.mem_of_head? hhead)

/-! ### A fresh table -/

/-- The links of a fresh table lead through all slots in order. -/
theorem chain_fresh {link : Fin n → Option (Fin n)}
    (hlink : ∀ i : Fin n, link i = if h : i.val + 1 < n then some ⟨i.val + 1, h⟩ else none)
    (k : Nat) :
    Chain link (if h : k < n then some ⟨k, h⟩ else none) ((List.finRange n).drop k) := by
  induction hm : n - k generalizing k with
  | zero =>
    rw [List.drop_eq_nil_of_le (by simp; omega), dif_neg (by omega), Chain]
  | succ m ih =>
    have hk : k < n := by omega
    rw [List.drop_eq_getElem_cons (by simpa using hk), dif_pos hk, List.getElem_finRange]
    refine ⟨rfl, ?_⟩
    have hnext := hlink ⟨k, hk⟩
    simp only [Fin.cast_mk]
    rw [hnext]
    exact ih (k + 1) (by omega)

variable {t : EnvTable n} {config : Config}

/-- What a fresh table is. -/
structure Fresh (config : Config) (t : EnvTable n) : Prop where
  capacity : IsCapacity n
  room : fits n config.layout = true
  config_eq : t.config = config
  current_eq : t.current = none
  slots_eq : ∀ i : Fin n, t[i] = {}
  link_eq : ∀ i : Fin n, t.link i = if h : i.val + 1 < n then some ⟨i.val + 1, h⟩ else none
  head_eq : t.freeHead = if h : 0 < n then some ⟨0, h⟩ else none

theorem fresh_of_new (h : new n config = .ok t) : Fresh config t := by
  unfold new at h
  split at h
  · rename_i hcap
    split at h
    · rename_i hfits
      cases h
      exact {
        capacity := hcap
        room := hfits
        config_eq := rfl
        current_eq := rfl
        slots_eq := fun i => Vector.getElem_replicate i.isLt
        link_eq := fun i => Vector.getElem_ofFn i.isLt
        head_eq := by rw [dif_pos (Nat.pos_of_ne_zero hcap.1)] }
    · cases h
  · cases h

/-- A fresh table hands out its slots in order. -/
theorem Fresh.freeList_eq (h : Fresh config t) : t.freeList = List.finRange n :=
  EnvTable.freeList_eq (by simpa [h.head_eq] using chain_fresh h.link_eq 0) (List.nodup_finRange n)

theorem Fresh.linked (h : Fresh config t) : Linked t where
  chain := by
    rw [h.freeList_eq]
    simpa [h.head_eq] using chain_fresh h.link_eq 0
  nodup := h.freeList_eq ▸ List.nodup_finRange n
  mem_iff i := by
    rw [h.freeList_eq, h.slots_eq]
    simp
  unlinked i hi := absurd (by rw [h.slots_eq]) hi

/-! ### The list after a change -/

theorem Linked.freeList_take (h : Linked t) {i : Fin n} (hhead : t.freeHead = some i)
    (env : Environment) : t.freeList = i :: (t.take i env).freeList ∧
      Chain (t.take i env).link (t.take i env).freeHead (t.take i env).freeList := by
  have hchain := h.chain
  have hnodup := h.nodup
  cases hl : t.freeList with
  | nil =>
    rw [hl, hhead] at hchain
    cases hchain
  | cons j rest =>
    rw [hl] at hchain hnodup
    obtain ⟨hj, hrest⟩ := hchain
    obtain rfl : i = j := Option.some.inj (hhead.symm.trans hj)
    obtain ⟨hi, hnodup⟩ := List.nodup_cons.1 hnodup
    have hafter : Chain (t.take i env).link (t.take i env).freeHead rest :=
      hrest.congr fun k hk => t.link_take_other env fun hki => hi (hki ▸ hk)
    rw [freeList_eq hafter hnodup]
    exact ⟨rfl, hafter⟩

theorem Linked.freeList_giveBack (h : Linked t) {i : Fin n} (hi : t[i].status ≠ .free) :
    (t.giveBack i).freeList = i :: t.freeList ∧
      Chain (t.giveBack i).link (t.giveBack i).freeHead (i :: t.freeList) := by
  have hnew : i ∉ t.freeList := fun hmem => hi ((h.mem_iff i).1 hmem)
  have hchain : Chain (t.giveBack i).link (t.giveBack i).freeHead (i :: t.freeList) := by
    refine ⟨rfl, ?_⟩
    rw [link_giveBack_self]
    exact h.chain.congr fun k hk => t.link_giveBack_other fun hki => hnew (hki ▸ hk)
  exact ⟨freeList_eq hchain (List.nodup_cons.2 ⟨hnew, h.nodup⟩), hchain⟩

theorem freeList_modify (i : Fin n) (f : Environment → Environment) :
    (t.modify i f).freeList = t.freeList :=
  freeList_congr rfl rfl

theorem freeList_handOver (i : Fin n) : (t.handOver i).freeList = t.freeList :=
  freeList_congr (t.link_handOver i) (t.freeHead_handOver i)

end EnvKernel.Env.EnvTable
