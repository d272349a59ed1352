import EnvKernel.Memory.Page
import EnvKernel.Proofs.Word
import Mathlib.Tactic.Common

/-!
Pages and the ranges that meet them. A range meets a page if one of its addresses lies there. `pages_eq`
and `exists_base_iff_meets` say that the pages of a range are exactly those that it meets, and
`exists_base_lt_iff` which of them come before one of them.
-/

namespace EnvKernel.Memory

variable {addr : UInt64} {len : Nat} {range : Range}

/-! ### Addresses and pages -/

theorem toNat_pageBase (addr : UInt64) : (pageBase addr).toNat = addr.toNat / 4096 * 4096 :=
  Word.toNat_and_not_mask addr.toBitVec 12

theorem pageBase_eq_iff {a b : UInt64} : pageBase a = pageBase b ↔ a.toNat / 4096 = b.toNat / 4096 := by
  rw [← UInt64.toNat_inj, toNat_pageBase, toNat_pageBase]
  omega

theorem pageBase_pageBase (a : UInt64) : pageBase (pageBase a) = pageBase a := by
  rw [pageBase_eq_iff, toNat_pageBase]
  omega

/-- The address lies in the range. -/
def Range.Contains (range : Range) (a : UInt64) : Prop :=
  range.start.toNat ≤ a.toNat ∧ a.toNat < range.stop.toNat

instance (range : Range) (a : UInt64) : Decidable (range.Contains a) := inferInstanceAs (Decidable (_ ∧ _))

/-- No address lies in both ranges. -/
def Range.Disjoint (range range' : Range) : Prop := ∀ a, range.Contains a → ¬ range'.Contains a

/-- Some address of the range lies on the page of `a`. -/
def Range.Meets (range : Range) (a : UInt64) : Prop :=
  ∃ b : UInt64, range.start ≤ b ∧ b < range.stop ∧ pageBase b = pageBase a

/-- The pages that a range meets are those from its first to its last address. -/
theorem Range.meets_iff {a : UInt64} : range.Meets a ↔ range.start.toNat < range.stop.toNat ∧
    range.start.toNat / 4096 ≤ a.toNat / 4096 ∧ a.toNat / 4096 ≤ (range.stop.toNat - 1) / 4096 := by
  constructor
  · rintro ⟨b, hstart, hstop, hpage⟩
    rw [UInt64.le_iff_toNat_le] at hstart
    rw [UInt64.lt_iff_toNat_lt] at hstop
    rw [pageBase_eq_iff] at hpage
    omega
  · rintro ⟨hlt, hfirst, hlast⟩
    have ha := a.toNat_lt
    have hplace : max range.start.toNat (a.toNat / 4096 * 4096) < 2 ^ 64 := by omega
    -- the first address of the range that is on the page or behind it
    refine ⟨UInt64.ofNat (max range.start.toNat (a.toNat / 4096 * 4096)), ?_, ?_, ?_⟩
    · rw [UInt64.le_iff_toNat_le, UInt64.toNat_ofNat', Nat.mod_eq_of_lt hplace]
      exact Nat.le_max_left _ _
    · rw [UInt64.lt_iff_toNat_lt, UInt64.toNat_ofNat', Nat.mod_eq_of_lt hplace]
      omega
    · rw [pageBase_eq_iff, UInt64.toNat_ofNat', Nat.mod_eq_of_lt hplace]
      omega

instance (range : Range) (a : UInt64) : Decidable (range.Meets a) :=
  decidable_of_iff _ Range.meets_iff.symm

theorem Range.meets_of_mem {a : UInt64} (hstart : range.start ≤ a) (hstop : a < range.stop) :
    range.Meets a :=
  ⟨a, hstart, hstop, rfl⟩

/-! ### Runs of pages -/

section Touched

variable (hfit : addr.toNat + len ≤ 0x10000000000000000)

include hfit

theorem toNat_count_touched : (touched addr len).count.toNat =
    if len = 0 then 0 else (addr.toNat % 4096 + len - 1) / 4096 + 1 := by
  have hoffset : pageOffset addr = addr.toNat % 4096 := rfl
  rw [touched, UInt64.toNat_ofNat', Nat.mod_eq_of_lt]
  · rfl
  · split <;> omega

theorem toNat_base_touched {j : Nat} (hj : j < (touched addr len).count.toNat) :
    ((touched addr len).base j).toNat = (addr.toNat / 4096 + j) * 4096 := by
  rw [toNat_count_touched hfit] at hj
  split at hj
  · omega
  · rw [PageRun.base, touched, UInt64.toNat_add, UInt64.toNat_mul, toNat_pageBase, UInt64.toNat_ofNat',
      show pageSize.toNat = 4096 from rfl]
    omega

/-- The first pages of a run are those that follow on each other from its first address on. -/
theorem exists_base_iff {k : Nat} (hk : k ≤ (touched addr len).count.toNat) {a : UInt64} :
    (∃ j < k, (touched addr len).base j = pageBase a) ↔
      addr.toNat / 4096 ≤ a.toNat / 4096 ∧ a.toNat / 4096 < addr.toNat / 4096 + k := by
  have hbase : ∀ j < k, ((touched addr len).base j).toNat = (addr.toNat / 4096 + j) * 4096 :=
    fun j hj => toNat_base_touched hfit (Nat.lt_of_lt_of_le hj hk)
  constructor
  · rintro ⟨j, hj, heq⟩
    have hnumber := hbase j hj
    rw [heq, toNat_pageBase] at hnumber
    omega
  · rintro ⟨hle, hlt⟩
    refine ⟨a.toNat / 4096 - addr.toNat / 4096, by omega, ?_⟩
    rw [← UInt64.toNat_inj, hbase _ (by omega), toNat_pageBase]
    omega

end Touched

/-- The pages of a range are those that an access to all of it touches. -/
theorem pages_eq (h : range.start ≤ range.stop) :
    pages range = .ok (touched range.start (range.stop.toNat - range.start.toNat)) := by
  have hle := UInt64.le_iff_toNat_le.1 h
  have hlt := range.stop.toNat_lt
  have hoffset : pageOffset range.start = range.start.toNat % 4096 := rfl
  rw [pages, if_neg (UInt64.not_lt.2 h)]
  by_cases heq : range.start = range.stop
  · simp [heq, touched]
  · have hne := mt UInt64.toNat_inj.1 heq
    have hlast : (range.stop - 1).toNat = range.stop.toNat - 1 := by
      rw [Word.toNat_sub (show (1 : UInt64).toNat ≤ range.stop.toNat from by
        rw [show (1 : UInt64).toNat = 1 from rfl]; omega)]
      rfl
    have hdiff : (pageBase (range.stop - 1) - pageBase range.start).toNat =
        (range.stop.toNat - 1) / 4096 * 4096 - range.start.toNat / 4096 * 4096 := by
      rw [Word.toNat_sub, toNat_pageBase, toNat_pageBase, hlast]
      rw [toNat_pageBase, toNat_pageBase, hlast]
      omega
    simp only [if_neg heq, Except.ok.injEq, touched, PageRun.mk.injEq, true_and]
    rw [← UInt64.toNat_inj, UInt64.toNat_add, UInt64.toNat_div, hdiff, UInt64.toNat_ofNat',
      show pageSize.toNat = 4096 from rfl, show (1 : UInt64).toNat = 1 from rfl, if_neg (by omega)]
    omega

/-- The pages of the range from an address to the one `len` places further on. -/
theorem pages_advance? {stop : UInt64} (h : Word.advance? addr len = some stop) :
    pages ⟨addr, stop⟩ = .ok (touched addr len) := by
  have hvalue := Word.toNat_advance? h
  have hle : addr ≤ stop := UInt64.le_iff_toNat_le.2 (by omega)
  rw [pages_eq hle, hvalue, Nat.add_sub_cancel_left]

section Pages

variable (h : range.start ≤ range.stop)

include h

theorem Range.fits : range.start.toNat + (range.stop.toNat - range.start.toNat) ≤ 0x10000000000000000 := by
  have hle := UInt64.le_iff_toNat_le.1 h
  have hlt := range.stop.toNat_lt
  omega

/-- The pages of a range are those that it meets. -/
theorem exists_base_iff_meets {run : PageRun} (hrun : pages range = .ok run) (a : UInt64) :
    (∃ j < run.count.toNat, run.base j = pageBase a) ↔ range.Meets a := by
  have hle := UInt64.le_iff_toNat_le.1 h
  rw [pages_eq h] at hrun
  cases hrun
  rw [exists_base_iff (Range.fits h) (Nat.le_refl _), toNat_count_touched (Range.fits h), Range.meets_iff]
  split <;> omega

/-- The pages of a range before one of them are those that it meets and that begin before that one. -/
theorem exists_base_lt_iff {run : PageRun} (hrun : pages range = .ok run) {k : Nat}
    (hk : k < run.count.toNat) (a : UInt64) :
    (∃ j < k, run.base j = pageBase a) ↔ range.Meets a ∧ a < run.base k := by
  rw [pages_eq h] at hrun
  cases hrun
  rw [exists_base_iff (Range.fits h) (Nat.le_of_lt hk), Range.meets_iff, UInt64.lt_iff_toNat_lt,
    toNat_base_touched (Range.fits h) hk]
  rw [toNat_count_touched (Range.fits h)] at hk
  split at hk <;> omega

/-- A page of a run has a first address that is one of a page. -/
theorem pageBase_base {run : PageRun} (hrun : pages range = .ok run) {k : Nat}
    (hk : k < run.count.toNat) : pageBase (run.base k) = run.base k := by
  rw [pages_eq h] at hrun
  cases hrun
  rw [← UInt64.toNat_inj, toNat_pageBase, toNat_base_touched (Range.fits h) hk]
  omega

/-- Some address of the range lies on each of its pages. -/
theorem exists_contains_of_base {run : PageRun} (hrun : pages range = .ok run) {k : Nat}
    (hk : k < run.count.toNat) : ∃ a, range.Contains a ∧ pageBase a = run.base k := by
  have hbase := pageBase_base h hrun hk
  obtain ⟨a, hstart, hstop, hpage⟩ := (exists_base_iff_meets h hrun (run.base k)).1 ⟨k, hk, hbase.symm⟩
  exact ⟨a, ⟨UInt64.le_iff_toNat_le.1 hstart, UInt64.lt_iff_toNat_lt.1 hstop⟩, hpage.trans hbase⟩

end Pages

end EnvKernel.Memory
