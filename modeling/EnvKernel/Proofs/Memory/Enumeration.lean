import EnvKernel.Proofs.Memory.Frame
import Mathlib.Data.List.Nodup

/-!
Frames in the order of the boot map. `visits` are the addresses that one walks through in steps of a
page, over the numbers, and `enumerates` says that the calls for frames get what is there in this order,
one after the other, then nothing, and that a call that comes to an address of more than 52 bits gives
up, as do all calls after it. So a frame of whole regions goes to one call for each region that has it:
to one if the regions do not overlap, and to two in `overlapping_regions`.
-/

namespace EnvKernel.Memory

variable {r : Range} {rs : List Range} {map : List BootRegion}

/-! ### The walk through the regions -/

/-- The addresses from `a` on in steps of one page, as long as they are below `stop`. -/
def walk (a stop : Nat) : List Nat :=
  if a < stop then a :: walk (a + 4096) stop else []
termination_by stop - a
decreasing_by omega

/-- The usable regions that are kept. -/
def keptRegions (map : List BootRegion) : List BootRegion := (usableRegions map).take 64

/-- The addresses that the walk through the regions comes to. -/
def visits (map : List BootRegion) : List Nat :=
  (keptRegions map).flatMap fun r => walk r.start.toNat r.stop.toNat

/-- The frame with the address `a` in it. -/
def frameOf (a : Nat) : UInt64 := UInt64.ofNat (a / 4096 * 4096)

/-- A frame begins at `f`, and all of its bytes are in the range. -/
def Range.Holds (r : Range) (f : UInt64) : Prop :=
  f.toNat % 4096 = 0 ∧ r.start.toNat ≤ f.toNat ∧ f.toNat + 4096 ≤ r.stop.toNat

instance (r : Range) (f : UInt64) : Decidable (r.Holds f) := inferInstanceAs (Decidable (_ ∧ _))

/-- The range consists of whole pages. -/
def Range.Aligned (r : Range) : Prop := pageBase r.start = r.start ∧ pageBase r.stop = r.stop

instance (r : Range) : Decidable r.Aligned := inferInstanceAs (Decidable (_ ∧ _))

namespace FrameAllocator

/-- One call. If it gives up, the allocator stays as it was. -/
def ask (a : FrameAllocator) : Except Panic (Option UInt64) × FrameAllocator :=
  match a.allocate with
  | .ok (frame, a) => (.ok frame, a)
  | .error p => (.error p, a)

/-- The allocator of a boot map after `n` calls. -/
def afterCalls (map : List BootRegion) : Nat → FrameAllocator
  | 0 => ofBootMap map
  | n + 1 => (afterCalls map n).ask.2

/-- What call number `i` comes to. -/
def answer (map : List BootRegion) (i : Nat) : Except Panic (Option UInt64) := (afterCalls map i).ask.1

/-- How many of the first `n` calls get the frame `f`. -/
def grants (map : List BootRegion) (n : Nat) (f : UInt64) : Nat :=
  (List.range n).countP fun i => answer map i = .ok (some f)

end FrameAllocator

open FrameAllocator

/-- The calls for frames follow the walk through the usable regions of a boot map. -/
structure Enumerates (map : List BootRegion) : Prop where
  /-- As long as all addresses have at most 52 bits, call number `i` gets the frame of address number
  `i`, or none if there is no such address. -/
  answer_eq : ∀ i, (∀ a ∈ (visits map).take (i + 1), a < 0x10000000000000) →
    answer map i = .ok ((visits map)[i]?.map frameOf)
  /-- After a call that gets none all calls get none. -/
  exhausted : ∀ i, answer map i = .ok none → ∀ k, i ≤ k → answer map k = .ok none
  /-- Behind the first address of more bits no call gets any further. -/
  stuck : ∀ j a, (visits map)[j]? = some a → 0x10000000000000 ≤ a →
    (∀ b ∈ (visits map).take j, b < 0x10000000000000) → ∀ i, j ≤ i →
      answer map i = .error .physicalAddress ∧ (afterCalls map i).next = j
  /-- All calls that return are counted, and no others. -/
  used_eq : ∀ n, (afterCalls map n).next = (List.range n).countP fun i => (answer map i).isOk
  /-- A whole frame goes to one call for each region that has it. -/
  grants_eq : (∀ a ∈ visits map, a < 0x10000000000000) → (∀ r ∈ keptRegions map, r.range.Aligned) →
    ∀ n f, (visits map).length ≤ n → grants map n f = (keptRegions map).countP fun r => r.range.Holds f
  /-- If the regions do not overlap, it goes to one call. -/
  grants_eq_one : (∀ a ∈ visits map, a < 0x10000000000000) → (∀ r ∈ keptRegions map, r.range.Aligned) →
    ((keptRegions map).Pairwise fun r r' => r.range.Disjoint r'.range) →
      ∀ n f, (visits map).length ≤ n → (∃ r ∈ keptRegions map, r.range.Holds f) → grants map n f = 1

/-! ### The walk and the addresses of the allocator -/

theorem walk_eq (a stop : Nat) :
    walk a stop = (List.range ((stop - a + 4095) / 4096)).map fun i => a + 4096 * i := by
  fun_induction walk a stop with
  | case1 a hlt ih =>
    have hcount : (stop - a + 4095) / 4096 = (stop - (a + 4096) + 4095) / 4096 + 1 := by omega
    rw [hcount, List.range_succ_eq_map, List.map_cons, List.map_map, ih]
    refine congrArg (_ :: ·) (List.map_congr_left fun i _ => ?_)
    simp only [Function.comp_apply]
    omega
  | case2 a hle =>
    have hnone : (stop - a + 4095) / 4096 = 0 := by omega
    rw [hnone]
    rfl

theorem walk_eq_map (r : Range) :
    walk r.start.toNat r.stop.toNat = ((List.range r.steps).map r.stepTo).map (·.toNat) := by
  rw [walk_eq, List.map_map]
  exact List.map_congr_left fun i hi => (toNat_stepTo (List.mem_range.1 hi)).symm

theorem visits_eq (map : List BootRegion) :
    visits map = (addresses (ofBootMap map).usable).map (·.toNat) := by
  have husable : (ofBootMap map).usable = (keptRegions map).map (·.range) := rfl
  rw [visits, husable, addresses, List.map_flatMap, List.flatMap_map]
  exact congrArg (fun f => (keptRegions map).flatMap f) (funext fun r => walk_eq_map r.range)

theorem frameOf_toNat (a : UInt64) : frameOf a.toNat = pageBase a := by
  have hlt := a.toNat_lt
  rw [← UInt64.toNat_inj, toNat_pageBase]
  exact UInt64.toNat_ofNat_of_lt' (Nat.lt_of_le_of_lt (Nat.div_mul_le_self _ _) hlt)

theorem getElem?_visits (map : List BootRegion) (i : Nat) :
    (visits map)[i]?.map frameOf = (addresses (ofBootMap map).usable)[i]?.map pageBase := by
  rw [visits_eq, List.getElem?_map, Option.map_map]
  exact congrArg (fun f => Option.map f _) (funext frameOf_toNat)

theorem physicalUpTo_iff (map : List BootRegion) (i : Nat) : PhysicalUpTo (ofBootMap map).usable i ↔
    ∀ a ∈ (visits map).take (i + 1), a < 0x10000000000000 := by
  rw [visits_eq, ← List.map_take, List.forall_mem_map]
  rfl

theorem PhysicalUpTo.mono {i j : Nat} (h : PhysicalUpTo rs i) (hle : j ≤ i) : PhysicalUpTo rs j :=
  fun a ha => h a (List.take_subset_take_left _ (Nat.succ_le_succ hle) ha)

/-! ### Calls in a row -/

namespace FrameAllocator

theorem ask_of_physicalUpTo {k : Nat} (h : PhysicalUpTo rs k) :
    ask ⟨rs, k⟩ = (.ok ((addresses rs)[k]?.map pageBase), ⟨rs, k + 1⟩) := by
  rw [ask, allocate, frame?_eq, if_pos h]
  rfl

theorem ask_of_not_physicalUpTo {k : Nat} (h : ¬ PhysicalUpTo rs k) :
    ask ⟨rs, k⟩ = (.error .physicalAddress, ⟨rs, k⟩) := by
  rw [ask, allocate, frame?_eq, if_neg h]
  rfl

/-- The allocator `a` has come to address number `a.next` in `n` calls: all of them returned, or those
that did not gave up there. -/
structure CameTo (rs : List Range) (n : Nat) (a : FrameAllocator) : Prop where
  usable_eq : a.usable = rs
  next_le : a.next ≤ n
  passed : ∀ i < a.next, PhysicalUpTo rs i
  blocked : a.next < n → ¬ PhysicalUpTo rs a.next

theorem cameTo_afterCalls (map : List BootRegion) (n : Nat) :
    CameTo (ofBootMap map).usable n (afterCalls map n) := by
  induction n with
  | zero => exact ⟨rfl, Nat.le_refl 0, nofun, nofun⟩
  | succ n ih =>
    rw [afterCalls]
    obtain ⟨husable, hle, hpassed, hblocked⟩ := ih
    generalize afterCalls map n = a at husable hle hpassed hblocked
    obtain ⟨usable, k⟩ := a
    subst husable
    by_cases hk : PhysicalUpTo (ofBootMap map).usable k
    · have heq : k = n := Nat.le_antisymm hle (Nat.not_lt.1 fun hlt => hblocked hlt hk)
      rw [ask_of_physicalUpTo hk]
      refine ⟨rfl, Nat.succ_le_succ hle, fun i hi => hk.mono (Nat.lt_succ_iff.1 hi), fun hlt => ?_⟩
      simp only at hlt
      omega
    · rw [ask_of_not_physicalUpTo hk]
      exact ⟨rfl, Nat.le_succ_of_le hle, hpassed, fun _ => hk⟩

/-- Call number `i` gets frame number `i`, whether calls before it gave up or not. -/
theorem answer_eq (map : List BootRegion) (i : Nat) : answer map i =
    if PhysicalUpTo (ofBootMap map).usable i then .ok ((addresses (ofBootMap map).usable)[i]?.map pageBase)
    else .error .physicalAddress := by
  rw [answer]
  obtain ⟨husable, hle, hpassed, hblocked⟩ := cameTo_afterCalls map i
  generalize afterCalls map i = a at husable hle hpassed hblocked
  obtain ⟨usable, k⟩ := a
  subst husable
  rcases Nat.lt_or_eq_of_le hle with hlt | heq
  · rw [ask_of_not_physicalUpTo (hblocked hlt), if_neg fun h => hblocked hlt (h.mono hle)]
  · subst heq
    by_cases hk : PhysicalUpTo (ofBootMap map).usable k
    · rw [ask_of_physicalUpTo hk, if_pos hk]
    · rw [ask_of_not_physicalUpTo hk, if_neg hk]

theorem next_afterCalls (map : List BootRegion) (n : Nat) :
    (afterCalls map n).next = (List.range n).countP fun i => (answer map i).isOk := by
  induction n with
  | zero => rfl
  | succ n ih =>
    rw [List.range_succ, List.countP_append, ← ih, List.countP_singleton, afterCalls, answer]
    obtain ⟨usable, k⟩ := afterCalls map n
    by_cases hk : PhysicalUpTo usable k
    · rw [ask_of_physicalUpTo hk]
      rfl
    · rw [ask_of_not_physicalUpTo hk]
      rfl

end FrameAllocator

/-! ### Calls for one frame -/

/-- Looking at the entries of a list by number, and at none behind the last. -/
theorem countP_range_getElem? {α : Type} (p : α → Bool) (l : List α) {n : Nat} (h : l.length ≤ n) :
    ((List.range n).countP fun i => l[i]?.any p) = l.countP p := by
  induction l generalizing n with
  | nil => simp
  | cons a l ih =>
    obtain ⟨n, rfl⟩ := Nat.exists_eq_add_of_le' (Nat.lt_of_lt_of_le (Nat.succ_pos l.length) h)
    have hrest := ih (n := n) (Nat.le_of_succ_le_succ h)
    rw [List.range_succ_eq_map, List.countP_cons, List.countP_map, List.countP_cons]
    simpa [Function.comp_def] using hrest

theorem Range.Aligned.pageBase_stepTo (h : r.Aligned) {i : Nat} (hi : i < r.steps) :
    pageBase (r.stepTo i) = r.stepTo i := by
  have hstart := h.1
  have hvalue := toNat_stepTo hi
  have hbase := toNat_pageBase (r.stepTo i)
  rw [← UInt64.toNat_inj, toNat_pageBase] at hstart
  rw [← UInt64.toNat_inj]
  omega

/-- The steps through a region of whole pages arrive once at each of them. -/
theorem Range.Aligned.countP_eq (h : r.Aligned) (f : UInt64) :
    ((List.range r.steps).map r.stepTo).countP (pageBase · = f) = if r.Holds f then 1 else 0 := by
  have hnodup : ((List.range r.steps).map r.stepTo).Nodup := by
    refine List.Nodup.map_on (fun i hi j hj heq => ?_) List.nodup_range
    rw [List.mem_range] at hi hj
    rw [← UInt64.toNat_inj, toNat_stepTo hi, toNat_stepTo hj] at heq
    omega
  have hmem : f ∈ (List.range r.steps).map r.stepTo ↔ r.Holds f := by
    have hstart := h.1
    have hstop := h.2
    rw [← UInt64.toNat_inj, toNat_pageBase] at hstart hstop
    rw [List.mem_map, Range.Holds]
    constructor
    · rintro ⟨i, hi, rfl⟩
      rw [List.mem_range] at hi
      rw [toNat_stepTo hi]
      rw [Range.steps] at hi
      omega
    · rintro ⟨hpage, hle, hlt⟩
      have hi : (f.toNat - r.start.toNat) / 4096 < r.steps := by
        rw [Range.steps]
        omega
      refine ⟨(f.toNat - r.start.toNat) / 4096, List.mem_range.2 hi, ?_⟩
      rw [← UInt64.toNat_inj, toNat_stepTo hi]
      omega
  have hcount : ((List.range r.steps).map r.stepTo).countP (pageBase · = f) =
      ((List.range r.steps).map r.stepTo).count f := by
    refine List.countP_congr fun a ha => ?_
    obtain ⟨i, hi, rfl⟩ := List.mem_map.1 ha
    rw [h.pageBase_stepTo (List.mem_range.1 hi)]
    simp
  rw [hcount, hnodup.count]
  simp only [hmem]

theorem countP_addresses (h : ∀ r ∈ rs, r.Aligned) (f : UInt64) :
    (addresses rs).countP (pageBase · = f) = rs.countP fun r => r.Holds f := by
  induction rs with
  | nil => rfl
  | cons r rs ih =>
    rw [List.forall_mem_cons] at h
    rw [addresses_cons, List.countP_append, List.countP_cons, ih h.2, h.1.countP_eq, Nat.add_comm]
    simp

theorem grants_of_aligned (hphysical : ∀ a ∈ visits map, a < 0x10000000000000)
    (haligned : ∀ r ∈ keptRegions map, r.range.Aligned) {n : Nat} (hn : (visits map).length ≤ n)
    (f : UInt64) : grants map n f = (keptRegions map).countP fun r => r.range.Holds f := by
  have hanswer : ∀ i, answer map i = .ok ((addresses (ofBootMap map).usable)[i]?.map pageBase) := by
    intro i
    rw [answer_eq, if_pos]
    exact (physicalUpTo_iff map i).2 fun a ha => hphysical a (List.mem_of_mem_take ha)
  have hgranted : ∀ i, decide (answer map i = .ok (some f)) =
      (addresses (ofBootMap map).usable)[i]?.any (pageBase · = f) := by
    intro i
    rw [hanswer]
    cases (addresses (ofBootMap map).usable)[i]? <;> simp
  rw [visits_eq, List.length_map] at hn
  have husable : (ofBootMap map).usable = (keptRegions map).map (·.range) := rfl
  rw [grants]
  simp only [hgranted]
  rw [countP_range_getElem? _ _ hn, husable, countP_addresses (List.forall_mem_map.2 haligned),
    List.countP_map]
  rfl

/-- A frame is in at most one of several regions that do not overlap. -/
theorem countP_holds_eq_one {l : List BootRegion} {f : UInt64}
    (h : l.Pairwise fun r r' => r.range.Disjoint r'.range) (hmem : ∃ r ∈ l, r.range.Holds f) :
    (l.countP fun r => r.range.Holds f) = 1 := by
  have hcontains : ∀ {r : BootRegion}, r.range.Holds f → r.range.Contains f := by
    rintro r ⟨-, hle, hlt⟩
    exact ⟨hle, by omega⟩
  induction l with
  | nil => simp at hmem
  | cons r l ih =>
    rw [List.pairwise_cons] at h
    by_cases hr : r.range.Holds f
    · have hrest : (l.countP fun r => r.range.Holds f) = 0 := by
        rw [List.countP_eq_zero]
        intro r' hr' hholds
        exact h.1 r' hr' f (hcontains hr) (hcontains (of_decide_eq_true hholds))
      rw [List.countP_cons, hrest]
      simp [hr]
    · obtain ⟨r', hr', hholds⟩ := hmem
      rcases List.mem_cons.1 hr' with rfl | hr'
      · exact absurd hholds hr
      · rw [List.countP_cons, ih h.2 ⟨r', hr', hholds⟩]
        simp [hr]

/-! ### The result -/

/-- However often it is called, the allocator of a boot map follows the walk through its usable regions,
and stops for good in front of the first address of more than 52 bits. -/
theorem enumerates (map : List BootRegion) : Enumerates map where
  answer_eq i h := by
    rw [answer_eq, if_pos ((physicalUpTo_iff map i).2 h), getElem?_visits]
  exhausted i hi k hk := by
    have hup : PhysicalUpTo (ofBootMap map).usable i := by
      by_contra hnot
      rw [answer_eq, if_neg hnot] at hi
      cases hi
    rw [answer_eq, if_pos hup, Except.ok.injEq, Option.map_eq_none_iff, List.getElem?_eq_none_iff] at hi
    -- All addresses are among those that call `i` looks at.
    have hupk : PhysicalUpTo (ofBootMap map).usable k := by
      intro a ha
      refine hup a ?_
      rw [List.take_of_length_le (by omega)]
      exact List.mem_of_mem_take ha
    rw [answer_eq, if_pos hupk, List.getElem?_eq_none (Nat.le_trans hi hk)]
    rfl
  stuck j a hj hlarge hbefore i hi := by
    have hblocked : ∀ k, j ≤ k → ¬ PhysicalUpTo (ofBootMap map).usable k := by
      intro k hk hup
      have hmem : a ∈ (visits map).take (k + 1) :=
        List.mem_of_getElem? ((List.getElem?_take_of_lt (Nat.lt_succ_of_le hk)).trans hj)
      exact absurd ((physicalUpTo_iff map k).1 hup a hmem) (Nat.not_lt.2 hlarge)
    have hfree : ∀ k, k < j → PhysicalUpTo (ofBootMap map).usable k := by
      intro k hk
      refine (physicalUpTo_iff map k).2 fun b hb => hbefore b ?_
      exact List.take_subset_take_left _ (Nat.succ_le_of_lt hk) hb
    refine ⟨by rw [answer_eq, if_neg (hblocked i hi)], ?_⟩
    obtain ⟨-, hle, hpassed, hstop⟩ := cameTo_afterCalls map i
    rcases Nat.lt_trichotomy (afterCalls map i).next j with hlt | heq | hgt
    · exact absurd (hfree _ hlt) (hstop (Nat.lt_of_lt_of_le hlt hi))
    · exact heq
    · exact absurd (hpassed j hgt) (hblocked j (Nat.le_refl j))
  used_eq := next_afterCalls map
  grants_eq hphysical haligned n f hn := grants_of_aligned hphysical haligned hn f
  grants_eq_one hphysical haligned hdisjoint n f hn hmem := by
    rw [grants_of_aligned hphysical haligned hn, countP_holds_eq_one hdisjoint hmem]

/-- A page that the boot map names twice: each of two calls gets its frame. -/
theorem overlapping_regions :
    let map : List BootRegion := [⟨0x1000, 0x2000, .usable⟩, ⟨0x1000, 0x2000, .usable⟩]
    (∀ r ∈ keptRegions map, r.range.Aligned) ∧ (∀ a ∈ visits map, a < 0x10000000000000) ∧
      (∀ r ∈ keptRegions map, r.range.Holds 0x1000) ∧
      ∀ n, (visits map).length ≤ n → grants map n 0x1000 = 2 := by
  intro map
  have haligned : ∀ r ∈ keptRegions map, r.range.Aligned := by decide
  have hphysical : ∀ a ∈ visits map, a < 0x10000000000000 := by
    rw [visits_eq]
    decide
  exact ⟨haligned, hphysical, by decide, fun n hn => grants_of_aligned hphysical haligned hn _⟩

end EnvKernel.Memory
