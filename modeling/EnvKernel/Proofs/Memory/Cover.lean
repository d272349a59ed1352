import EnvKernel.Proofs.Memory.Page

/-!
The pages of a range, one by one. `pages_cover` says that they are the multiples of the page size with an
address of the range behind them on the page, each of them once and in ascending order, and that no step
of the computation leaves the words, not even for ranges that begin or end in the first or the last page
that there is. For the latter `pages?` and `PageRun.base?` do the same with operations that have no
result where one would leave the words.
-/

namespace EnvKernel.Memory

variable {range : Range} {run : PageRun}

/-- A page begins at `p`, and an address of the range lies on it. -/
def Range.Covers (range : Range) (p : UInt64) : Prop :=
  4096 ∣ p.toNat ∧ ∃ a, range.Contains a ∧ p.toNat ≤ a.toNat ∧ a.toNat ≤ p.toNat + 4095

/-- The pages that meet a range, if working them out does not leave the words. -/
def pages? (range : Range) : Option (Except MemoryError PageRun) :=
  if range.stop < range.start then some (.error (.badRange range.start range.stop))
  else if range.start = range.stop then some (.ok ⟨pageBase range.start, 0⟩)
  else do
    let last ← Word.sub? range.stop 1
    let span ← Word.sub? (pageBase last) (pageBase range.start)
    let count ← Word.add? (span / pageSize) 1
    return .ok ⟨pageBase range.start, count⟩

/-- The first address of page number `i` of the run, if working it out does not leave the words. -/
def PageRun.base? (r : PageRun) (i : Nat) : Option UInt64 := do
  let distance ← Word.mul? (UInt64.ofNat i) pageSize
  Word.add? r.first distance

/-- What asking for the pages of a range comes to. -/
structure Range.Covered (range : Range) (r : Except MemoryError PageRun) : Prop where
  error_iff : ∀ e, r = .error e ↔ range.stop < range.start ∧ e = .badRange range.start range.stop
  ok_iff : (∃ run, r = .ok run) ↔ range.start ≤ range.stop
  ascending : ∀ run, r = .ok run → run.bases.Pairwise (· < ·)
  mem_iff : ∀ run, r = .ok run → ∀ p, p ∈ run.bases ↔ range.Covers p
  nil_iff : ∀ run, r = .ok run → (run.bases = [] ↔ range.start = range.stop)
  /-- Nothing overflows before the first page is named. -/
  exact : pages? range = some r
  /-- Nothing overflows when a page is named. -/
  exact_base : ∀ run, r = .ok run → ∀ i < run.count.toNat, run.base? i = some (run.base i)

theorem Range.covers_iff {p : UInt64} : range.Covers p ↔ pageBase p = p ∧ range.Meets p := by
  have hbase : 4096 ∣ p.toNat ↔ pageBase p = p := by
    rw [← UInt64.toNat_inj, toNat_pageBase]
    omega
  rw [Range.Covers, hbase]
  refine and_congr_right fun hp => ?_
  rw [← UInt64.toNat_inj, toNat_pageBase] at hp
  constructor
  · rintro ⟨a, ⟨hstart, hstop⟩, hle, hlt⟩
    refine ⟨a, UInt64.le_iff_toNat_le.2 hstart, UInt64.lt_iff_toNat_lt.2 hstop, pageBase_eq_iff.2 ?_⟩
    omega
  · rintro ⟨a, hstart, hstop, hpage⟩
    rw [pageBase_eq_iff] at hpage
    refine ⟨a, ⟨UInt64.le_iff_toNat_le.1 hstart, UInt64.lt_iff_toNat_lt.1 hstop⟩, ?_, ?_⟩ <;> omega

/-! ### The pages of a range that is not reversed -/

section Ordered

variable (h : range.start ≤ range.stop) (hrun : pages range = .ok run)

include h hrun

theorem toNat_count_eq_zero_iff : run.count.toNat = 0 ↔ range.start = range.stop := by
  have hle := UInt64.le_iff_toNat_le.1 h
  rw [pages_eq h] at hrun
  cases hrun
  rw [toNat_count_touched (Range.fits h), ← UInt64.toNat_inj]
  split <;> omega

theorem toNat_base {i : Nat} (hi : i < run.count.toNat) :
    (run.base i).toNat = (range.start.toNat / 4096 + i) * 4096 := by
  rw [pages_eq h] at hrun
  cases hrun
  exact toNat_base_touched (Range.fits h) hi

theorem first_eq : run.first = pageBase range.start := by
  rw [pages_eq h] at hrun
  cases hrun
  rfl

theorem pairwise_bases : run.bases.Pairwise (· < ·) := by
  rw [PageRun.bases, List.pairwise_map]
  refine List.pairwise_lt_range.imp_of_mem fun {i j} hi hj hlt => ?_
  rw [List.mem_range] at hi hj
  rw [UInt64.lt_iff_toNat_lt, toNat_base h hrun hi, toNat_base h hrun hj]
  omega

theorem mem_bases_iff {p : UInt64} : p ∈ run.bases ↔ range.Covers p := by
  rw [Range.covers_iff, ← exists_base_iff_meets h hrun, PageRun.bases, List.mem_map]
  constructor
  · rintro ⟨i, hi, rfl⟩
    have hbase := pageBase_base h hrun (List.mem_range.1 hi)
    exact ⟨hbase, i, List.mem_range.1 hi, hbase.symm⟩
  · rintro ⟨hp, i, hi, hbase⟩
    exact ⟨i, List.mem_range.2 hi, hbase.trans hp⟩

theorem bases_eq_nil_iff : run.bases = [] ↔ range.start = range.stop := by
  rw [PageRun.bases, List.map_eq_nil_iff, List.range_eq_nil, toNat_count_eq_zero_iff h hrun]

theorem base?_eq {i : Nat} (hi : i < run.count.toNat) : run.base? i = some (run.base i) := by
  have hvalue := toNat_base h hrun hi
  have hbound := (run.base i).toNat_lt
  have hindex : (UInt64.ofNat i).toNat = i := UInt64.toNat_ofNat_of_lt' (Nat.lt_trans hi run.count.toNat_lt)
  have hsize : pageSize.toNat = 4096 := rfl
  have hproduct : (UInt64.ofNat i * pageSize).toNat = i * 4096 := by
    rw [UInt64.toNat_mul, hindex, hsize, Nat.mod_eq_of_lt (by omega)]
  have hmul : Word.mul? (UInt64.ofNat i) pageSize = some (UInt64.ofNat i * pageSize) := by
    rw [Word.mul?, hindex, hsize, if_pos (by omega)]
  rw [PageRun.base?, hmul, Option.bind_eq_bind, Option.bind_some, Word.add?, first_eq h hrun, hproduct,
    toNat_pageBase, if_pos (by omega), PageRun.base, first_eq h hrun]

end Ordered

/-- Counting the pages from the first to the last address stays within the words. -/
theorem pages?_eq (range : Range) : pages? range = some (pages range) := by
  rw [pages?, pages]
  by_cases hrange : range.stop < range.start
  · rw [if_pos hrange, if_pos hrange]
  rw [if_neg hrange, if_neg hrange]
  by_cases hempty : range.start = range.stop
  · rw [if_pos hempty]
    simp only [if_pos hempty]
  have hlt : range.start.toNat < range.stop.toNat :=
    Nat.lt_of_le_of_ne (UInt64.le_iff_toNat_le.1 (UInt64.not_lt.1 hrange)) (mt UInt64.toNat_inj.1 hempty)
  have hone : (1 : UInt64).toNat = 1 := rfl
  have hlast : (range.stop - 1).toNat = range.stop.toNat - 1 := Word.toNat_sub (by omega)
  have hspan : (pageBase range.start).toNat ≤ (pageBase (range.stop - 1)).toNat := by
    rw [toNat_pageBase, toNat_pageBase, hlast]
    omega
  have hbound := (pageBase (range.stop - 1) - pageBase range.start).toNat_lt
  have hstop : Word.sub? range.stop 1 = some (range.stop - 1) := if_pos (by omega)
  have hdiff : Word.sub? (pageBase (range.stop - 1)) (pageBase range.start) =
      some (pageBase (range.stop - 1) - pageBase range.start) := if_pos hspan
  have hcount : Word.add? ((pageBase (range.stop - 1) - pageBase range.start) / pageSize) 1 =
      some ((pageBase (range.stop - 1) - pageBase range.start) / pageSize + 1) := by
    refine if_pos ?_
    rw [UInt64.toNat_div, hone, show pageSize.toNat = 4096 from rfl]
    omega
  simp only [if_neg hempty, Option.bind_eq_bind, hstop, hdiff, hcount, Option.bind_some]
  rfl

/-- The pages of a range are exactly those that an address of it lies on, in ascending order, and they
are worked out without an overflow. A range that ends before it begins is refused, and no other. -/
theorem pages_cover (range : Range) : range.Covered (pages range) := by
  have hordered : ∀ run, pages range = .ok run → range.start ≤ range.stop := by
    intro run hrun
    by_contra hlt
    rw [pages, if_pos (UInt64.not_le.1 hlt)] at hrun
    cases hrun
  refine {
    error_iff := fun e => ?_
    ok_iff := ⟨fun h => h.elim hordered, fun h => ⟨_, pages_eq h⟩⟩
    ascending := fun run hrun => pairwise_bases (hordered run hrun) hrun
    mem_iff := fun run hrun p => mem_bases_iff (hordered run hrun) hrun
    nil_iff := fun run hrun => bases_eq_nil_iff (hordered run hrun) hrun
    exact := pages?_eq range
    exact_base := fun run hrun i hi => base?_eq (hordered run hrun) hrun hi }
  by_cases hrange : range.stop < range.start
  · rw [pages, if_pos hrange]
    simp [hrange, eq_comm]
  · rw [pages_eq (UInt64.not_lt.1 hrange)]
    simp [hrange]

/-- All bytes but the last one of the address space, and the last ones of it. -/
example : pages ⟨0, 0xffffffffffffffff⟩ = .ok ⟨0, 0x10000000000000⟩ ∧
    pages ⟨0xffffffffffffefff, 0xffffffffffffffff⟩ = .ok ⟨0xffffffffffffe000, 2⟩ := by decide

end EnvKernel.Memory
