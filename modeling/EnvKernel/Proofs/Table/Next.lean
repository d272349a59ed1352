import EnvKernel.Proofs.Table.Operation

/-!
Which environment is next. Every slot is looked at, so that nobody is next only if nobody is live, and
whoever is next is found by the handle that is told.
-/

namespace EnvKernel.Env.EnvTable

variable {n : Nat} {t : EnvTable n} {id : EnvId}

theorem mem_scanOrder (t : EnvTable n) (i : Fin n) : i ∈ t.scanOrder := by
  rw [scanOrder, List.mem_append, or_comm, ← List.mem_append, List.take_append_drop]
  exact List.mem_finRange i

/-- The next environment can be run, or it is the running one and no other can be run. -/
theorem nextRunnable_eq_some (h : t.nextRunnable = some id) : ∃ i : Fin n, t[i].id = id ∧
    (t[i].status = .runnable ∨
      t.running? = some i ∧ ∀ j : Fin n, t[j].status ≠ .runnable) := by
  rw [nextRunnable] at h
  split at h
  · rename_i i hfind
    have hready := List.find?_some (p := fun i : Fin n => t[i].status == .runnable) hfind
    exact ⟨i, Option.some.inj h, .inl (beq_iff_eq.1 hready)⟩
  · rename_i hfind
    rw [current?, Option.map_map, Option.map_eq_some_iff] at h
    obtain ⟨i, hrun, hid⟩ := h
    refine ⟨i, hid, .inr ⟨hrun, fun j => ?_⟩⟩
    exact fun hj => List.find?_eq_none.1 hfind j (t.mem_scanOrder j) (beq_iff_eq.2 hj)

/-- Nobody is next exactly if nobody can be run or is running. -/
theorem nextRunnable_eq_none_iff : t.nextRunnable = none ↔
    (∀ i : Fin n, t[i].status ≠ .runnable) ∧ t.running? = none := by
  constructor
  · intro h
    rw [nextRunnable] at h
    split at h
    · cases h
    · rename_i hfind
      rw [current?, Option.map_map, Option.map_eq_none_iff] at h
      refine ⟨fun i hi => ?_, h⟩
      exact List.find?_eq_none.1 hfind i (t.mem_scanOrder i) (beq_iff_eq.2 hi)
  · rintro ⟨hready, hrun⟩
    have hfind : t.scanOrder.find? (fun i => t[i].status == .runnable) = none :=
      List.find?_eq_none.2 fun i _ hi => hready i (beq_iff_eq.1 hi)
    rw [nextRunnable, hfind]
    simp only [current?, hrun, Option.map_none]

/-- The handle of the next environment is that of a live one. -/
theorem live_of_nextRunnable (h : t.nextRunnable = some id) :
    ∃ i : Fin n, t[i].id = id ∧ t[i].status ≠ .free := by
  obtain ⟨i, hid, hready | ⟨hrun, -⟩⟩ := nextRunnable_eq_some h
  · exact ⟨i, hid, by rw [hready]; nofun⟩
  · exact ⟨i, hid, live_of_running? hrun⟩

theorem live_eq_nil_iff : t.live = [] ↔ ∀ i : Fin n, t[i].status = .free := by
  rw [List.eq_nil_iff_forall_not_mem]
  constructor
  · intro h i
    by_contra hi
    exact h _ (mem_live_iff.2 ⟨i, hi, rfl⟩)
  · rintro h env henv
    obtain ⟨i, hi, -⟩ := mem_live_iff.1 henv
    exact hi (h i)

/-- Where every live environment can be run or is running, somebody is next as long as anybody is
live. -/
theorem Scheduled.nextRunnable_eq_none_iff (h : Scheduled t) :
    t.nextRunnable = none ↔ t.live = [] := by
  rw [EnvTable.nextRunnable_eq_none_iff, live_eq_nil_iff]
  constructor
  · rintro ⟨hready, hrun⟩ i
    rcases h.active i with hs | hs | hs
    · exact hs
    · exact absurd hs (hready i)
    · rw [t.running?_eq_some_iff.2 ⟨h.current_of_running i hs, hs⟩] at hrun
      cases hrun
  · intro hfree
    refine ⟨fun i hi => ?_, Option.eq_none_iff_forall_ne_some.2 fun i hi => ?_⟩
    · rw [hfree i] at hi
      cases hi
    · rw [t.running?_eq_some_iff, hfree i] at hi
      cases hi.2

end EnvKernel.Env.EnvTable
