import EnvKernel.Memory.Frame
import EnvKernel.Proofs.Memory.Page

/-!
The frames of a boot map. Steps of one page through the usable regions arrive at `addresses`, and call number
`i` for a frame gets the one that contains address number `i` (`frame?_eq`). Where no usable region begins or
ends inside of a frame it belongs to one region, and to one caller: `exclusive_calls`. A frame in which two
regions share out the bytes is handed out twice, with what lies between them: `shared_frame`.
-/

namespace EnvKernel.Memory

variable {r : Range} {rs : List Range} {map : List BootRegion}

/-! ### Steps through ranges -/

/-- The addresses that steps of one page through some ranges arrive at, in order. -/
def addresses (rs : List Range) : List UInt64 :=
  rs.flatMap fun r => (List.range r.steps).map r.stepTo

/-- A physical address has 52 bits. -/
def Physical (a : UInt64) : Prop := a.toNat < 0x10000000000000

instance (a : UInt64) : Decidable (Physical a) := inferInstanceAs (Decidable (_ < _))

theorem toNat_stepTo {i : Nat} (h : i < r.steps) : (r.stepTo i).toNat = r.start.toNat + 4096 * i := by
  have hstop := r.stop.toNat_lt
  rw [Range.steps] at h
  rw [Range.stepTo, UInt64.toNat_add, UInt64.toNat_ofNat']
  omega

theorem contains_stepTo {i : Nat} (h : i < r.steps) : r.Contains (r.stepTo i) := by
  rw [Range.Contains, toNat_stepTo h]
  rw [Range.steps] at h
  omega

/-- An address that steps arrive at lies in one of the ranges. -/
theorem exists_contains {a : UInt64} (h : a ∈ addresses rs) : ∃ r ∈ rs, r.Contains a := by
  obtain ⟨r, hr, ha⟩ := List.mem_flatMap.1 h
  obtain ⟨i, hi, rfl⟩ := List.mem_map.1 ha
  exact ⟨r, hr, contains_stepTo (List.mem_range.1 hi)⟩

theorem addresses_cons (r : Range) (rs : List Range) :
    addresses (r :: rs) = (List.range r.steps).map r.stepTo ++ addresses rs := rfl

theorem getElem?_addresses_cons (r : Range) (rs : List Range) (i : Nat) :
    (addresses (r :: rs))[i]? = if i < r.steps then some (r.stepTo i) else (addresses rs)[i - r.steps]? := by
  rw [addresses_cons, List.getElem?_append, List.length_map, List.length_range]
  split
  · simp [*]
  · rfl

/-- All addresses up to number `i` are physical. -/
def PhysicalUpTo (rs : List Range) (i : Nat) : Prop := ∀ a ∈ (addresses rs).take (i + 1), Physical a

instance (rs : List Range) (i : Nat) : Decidable (PhysicalUpTo rs i) :=
  List.decidableBAll _ _

/-- The addresses of one range ascend, so the last one that is looked at stands for all. -/
theorem physical_steps {k : Nat} (hk : k < r.steps) :
    (∀ a ∈ (List.range (k + 1)).map r.stepTo, Physical a) ↔ Physical (r.stepTo k) := by
  constructor
  · intro h
    exact h _ (List.mem_map_of_mem (List.mem_range.2 (Nat.lt_succ_self k)))
  · intro h a ha
    obtain ⟨i, hi, rfl⟩ := List.mem_map.1 ha
    rw [List.mem_range] at hi
    rw [Physical, toNat_stepTo hk] at h
    rw [Physical, toNat_stepTo (by omega)]
    omega

theorem physicalUpTo_of_lt {i : Nat} (hi : i < r.steps) :
    PhysicalUpTo (r :: rs) i ↔ Physical (r.stepTo i) := by
  rw [PhysicalUpTo, addresses_cons, List.take_append_of_le_length (by simpa using Nat.succ_le_of_lt hi),
    ← List.map_take, List.take_range, Nat.min_eq_left hi, physical_steps hi]

/-- Behind the addresses of a range that has some, the last of them and those of the next ranges count. -/
theorem physicalUpTo_of_le {i : Nat} (hi : r.steps ≤ i) : PhysicalUpTo (r :: rs) i ↔
    (r.steps ≠ 0 → Physical (r.stepTo (r.steps - 1))) ∧ PhysicalUpTo rs (i - r.steps) := by
  rw [PhysicalUpTo, addresses_cons, List.take_append, List.take_of_length_le (by simp; omega),
    List.length_map, List.length_range, List.forall_mem_append, Nat.sub_add_comm hi]
  refine and_congr_left fun _ => ?_
  by_cases hnone : r.steps = 0
  · simp [hnone]
  · have hlast := physical_steps (r := r) (k := r.steps - 1) (by omega)
    rw [Nat.sub_add_cancel (by omega)] at hlast
    rw [hlast]
    exact ⟨fun h _ => h, fun h => h hnone⟩

/-- Frame number `i` is the one that contains address number `i`, provided that all addresses up to that
one are physical. -/
theorem frame?_eq (rs : List Range) (i : Nat) : frame? rs i =
    if PhysicalUpTo rs i then Except.ok ((addresses rs)[i]?.map pageBase)
    else Except.error Panic.physicalAddress := by
  induction rs generalizing i with
  | nil =>
    have hnone : PhysicalUpTo [] i := fun a ha => by simp [addresses] at ha
    rw [if_pos hnone]
    rfl
  | cons r rs ih =>
    rw [frame?, getElem?_addresses_cons]
    by_cases hi : i < r.steps
    · rw [if_pos hi, if_pos hi]
      simp only [physicalUpTo_of_lt hi, frameAt, Physical]
      split <;> rfl
    · rw [if_neg hi, if_neg hi]
      simp only [ih, physicalUpTo_of_le (Nat.not_lt.1 hi), frameAt, Physical]
      by_cases hnone : r.steps = 0
      · simp [hnone]
      · by_cases hlast : (r.stepTo (r.steps - 1)).toNat < 0x10000000000000
        · simp [hnone, hlast]
        · simp [hnone, hlast]

namespace FrameAllocator

variable {a : FrameAllocator}

/-- No address that a call can look at has too many bits. -/
def Physical (a : FrameAllocator) : Prop := ∀ addr ∈ addresses a.usable, Memory.Physical addr

theorem Physical.upTo (h : a.Physical) (i : Nat) : PhysicalUpTo a.usable i :=
  fun addr haddr => h addr (List.mem_of_mem_take haddr)

theorem allocate_eq (h : a.Physical) :
    a.allocate = .ok ((addresses a.usable)[a.next]?.map pageBase, { a with next := a.next + 1 }) := by
  rw [allocate, frame?_eq, if_pos (h.upTo a.next)]
  rfl

/-- The results of `n` calls in a row. -/
def calls : Nat → FrameAllocator → Except Panic (List (Option UInt64) × FrameAllocator)
  | 0, a => .ok ([], a)
  | n + 1, a => do
    let (frame, a) ← a.allocate
    let (frames, a) ← calls n a
    return (frame :: frames, a)

theorem calls_eq (h : a.Physical) (n : Nat) : calls n a = .ok
    ((List.range n).map fun i => (addresses a.usable)[a.next + i]?.map pageBase,
      { a with next := a.next + n }) := by
  induction n generalizing a with
  | zero => rfl
  | succ n ih =>
    have hrest := ih (a := { a with next := a.next + 1 }) h
    have hnext : ∀ i, a.next + 1 + i = a.next + (i + 1) := fun i => by omega
    simp only [hnext] at hrest
    rw [calls, allocate_eq h, List.range_succ_eq_map, List.map_cons, List.map_map]
    simp only [bind, Except.bind, hrest]
    rfl

end FrameAllocator

/-! ### Frames of one region -/

/-- The addresses of a region. -/
def BootRegion.range (r : BootRegion) : Range := ⟨r.start, r.stop⟩

/-- The usable regions of a boot map are disjoint, and all of their addresses are physical. -/
structure Tidy (map : List BootRegion) : Prop where
  disjoint : (usableRegions map).Pairwise fun r r' => r.range.Disjoint r'.range
  physical : ∀ r ∈ usableRegions map, r.stop.toNat ≤ 0x10000000000000

/-- The range begins or ends inside of a frame. -/
def Range.Cuts (r : Range) (frame : UInt64) : Prop :=
  r.start < r.stop ∧ (frame < r.start ∧ r.start.toNat < frame.toNat + 4096 ∨
    frame < r.stop ∧ r.stop.toNat < frame.toNat + 4096)

instance (r : Range) (frame : UInt64) : Decidable (r.Cuts frame) := inferInstanceAs (Decidable (_ ∧ _))

/-- No usable region begins or ends inside of a frame. -/
def Whole (map : List BootRegion) (frame : UInt64) : Prop :=
  ∀ r ∈ usableRegions map, ¬ r.range.Cuts frame

instance (map : List BootRegion) (frame : UInt64) : Decidable (Whole map frame) :=
  List.decidableBAll _ _

/-- The usable regions of a boot map consist of whole pages. -/
def Aligned (map : List BootRegion) : Prop :=
  ∀ r ∈ usableRegions map, pageBase r.start = r.start ∧ pageBase r.stop = r.stop

theorem Aligned.whole (h : Aligned map) {frame : UInt64} (hframe : pageBase frame = frame) :
    Whole map frame := by
  intro r hr
  obtain ⟨hstart, hstop⟩ := h r hr
  rw [← UInt64.toNat_inj, toNat_pageBase] at hframe hstart hstop
  simp only [Range.Cuts, BootRegion.range, UInt64.lt_iff_toNat_lt]
  omega

theorem Range.disjoint_of_le {r' : Range} (h : r.stop ≤ r'.start) : r.Disjoint r' := by
  intro a ha ha'
  rw [UInt64.le_iff_toNat_le] at h
  exact absurd ha'.1 (Nat.not_le.2 (Nat.lt_of_lt_of_le ha.2 h))

/-- A range that has one byte of a frame and does not cut it has all of them. -/
theorem Range.Contains.of_not_cuts {a b : UInt64} (ha : r.Contains a) (hcuts : ¬ r.Cuts (pageBase a))
    (hb : pageBase b = pageBase a) : r.Contains b := by
  have hpage := pageBase_eq_iff.1 hb
  obtain ⟨hstart, hstop⟩ := ha
  simp only [Range.Cuts, UInt64.lt_iff_toNat_lt, toNat_pageBase] at hcuts
  rw [Range.Contains]
  omega

/-- Steps through disjoint ranges arrive twice at the same page only if one of the ranges cuts it. -/
theorem pairwise_addresses (h : rs.Pairwise Range.Disjoint) :
    (addresses rs).Pairwise fun a b => pageBase a = pageBase b → ∃ r ∈ rs, r.Cuts (pageBase a) := by
  rw [addresses, List.pairwise_flatMap]
  constructor
  · intro r hr
    rw [List.pairwise_map]
    refine List.pairwise_lt_range.imp_of_mem fun {i j} hi hj hlt hpage => ?_
    rw [List.mem_range] at hi hj
    rw [pageBase_eq_iff, toNat_stepTo hi, toNat_stepTo hj] at hpage
    omega
  · refine h.imp_of_mem fun {r r'} hr hr' hdisjoint a ha b hb hpage => ?_
    obtain ⟨i, hi, rfl⟩ := List.mem_map.1 ha
    obtain ⟨j, hj, rfl⟩ := List.mem_map.1 hb
    have hfirst := contains_stepTo (List.mem_range.1 hi)
    have hsecond := contains_stepTo (List.mem_range.1 hj)
    by_contra hnone
    have hcuts : ¬ r.Cuts (pageBase (r.stepTo i)) := fun hcuts => hnone ⟨r, hr, hcuts⟩
    exact hdisjoint _ (hfirst.of_not_cuts hcuts hpage.symm) hsecond

/-- The address lies in a usable region. -/
def Usable (map : List BootRegion) (a : UInt64) : Prop :=
  ∃ r ∈ map, r.kind = .usable ∧ r.range.Contains a

open FrameAllocator (ofBootMap)

theorem exists_region (hr : r ∈ (ofBootMap map).usable) : ∃ r' ∈ usableRegions map, r'.range = r := by
  obtain ⟨r', hr', rfl⟩ := List.mem_map.1 hr
  exact ⟨r', List.mem_of_mem_take hr', rfl⟩

theorem usable_of_contains {a : UInt64} (hr : r ∈ (ofBootMap map).usable) (ha : r.Contains a) :
    Usable map a := by
  obtain ⟨r', hr', rfl⟩ := exists_region hr
  obtain ⟨hmem, hkind⟩ := List.mem_filter.1 hr'
  exact ⟨r', hmem, eq_of_beq hkind, ha⟩

section Tidy

variable (h : Tidy map)

include h

theorem Tidy.disjoint_usable : (ofBootMap map).usable.Pairwise Range.Disjoint :=
  List.pairwise_map.2 (h.disjoint.sublist (List.take_sublist _ _))

theorem Tidy.physical_ofBootMap : (ofBootMap map).Physical := by
  intro a ha
  obtain ⟨r, hr, ha⟩ := exists_contains ha
  obtain ⟨r', hr', rfl⟩ := exists_region hr
  exact Nat.lt_of_lt_of_le ha.2 (h.physical r' hr')

/-- Two calls get different frames, unless a usable region cuts the frame. -/
theorem Tidy.eq_of_whole {i j : Nat} {a b : UInt64} (ha : (addresses (ofBootMap map).usable)[i]? = some a)
    (hb : (addresses (ofBootMap map).usable)[j]? = some b) (hpage : pageBase a = pageBase b)
    (hwhole : Whole map (pageBase a)) : i = j := by
  have hcuts : ¬ ∃ r ∈ (ofBootMap map).usable, r.Cuts (pageBase a) := by
    rintro ⟨r, hr, hcuts⟩
    obtain ⟨r', hr', rfl⟩ := exists_region hr
    exact hwhole r' hr' hcuts
  have hpairs := List.pairwise_iff_getElem.1 (pairwise_addresses h.disjoint_usable)
  obtain ⟨hi, rfl⟩ := List.getElem?_eq_some_iff.1 ha
  obtain ⟨hj, rfl⟩ := List.getElem?_eq_some_iff.1 hb
  rcases Nat.lt_trichotomy i j with hlt | heq | hlt
  · exact absurd (hpairs i j hi hj hlt hpage) hcuts
  · exact heq
  · exact absurd (hpairs j i hj hi hlt hpage.symm) (hpage ▸ hcuts)

end Tidy

/-- What a call for a frame that got `frame` has: some usable memory, and if no usable region begins or ends
inside of the frame, a frame of usable memory that no other call gets. -/
structure Held (map : List BootRegion) (frames : List (Option UInt64)) (i : Nat) (frame : UInt64) : Prop where
  isBase : pageBase frame = frame
  touches : ∃ a, pageBase a = frame ∧ Usable map a
  usable : Whole map frame → ∀ a, pageBase a = frame → Usable map a
  unique : Whole map frame → ∀ j, frames[j]? = some (some frame) → j = i

/-- The results of the first `n` calls. -/
def handedOut (map : List BootRegion) (n : Nat) : List (Option UInt64) :=
  (List.range n).map fun i => (addresses (ofBootMap map).usable)[i]?.map pageBase

theorem Tidy.calls_eq (h : Tidy map) (n : Nat) :
    (ofBootMap map).calls n = .ok (handedOut map n, ⟨(ofBootMap map).usable, n⟩) := by
  have hcalls := FrameAllocator.calls_eq h.physical_ofBootMap n
  simpa only [handedOut, show (ofBootMap map).next = 0 from rfl, Nat.zero_add] using hcalls

theorem handedOut_eq_some {n i : Nat} {frame : UInt64} (h : (handedOut map n)[i]? = some (some frame)) :
    ∃ a, (addresses (ofBootMap map).usable)[i]? = some a ∧ pageBase a = frame := by
  rw [handedOut, List.getElem?_map, Option.map_eq_some_iff] at h
  obtain ⟨k, hk, hframe⟩ := h
  obtain ⟨_, rfl⟩ := List.getElem?_eq_some_iff.1 hk
  rwa [List.getElem_range, Option.map_eq_some_iff] at hframe

/-- However often the allocator for a boot map is called, it returns, and a frame in which no usable
region begins or ends belongs to one caller and consists of usable memory. -/
theorem exclusive_calls (h : Tidy map) (n : Nat) : ∃ frames : List (Option UInt64),
    (ofBootMap map).calls n = .ok (frames, ⟨(ofBootMap map).usable, n⟩) ∧ frames.length = n ∧
      ∀ i frame, frames[i]? = some (some frame) → Held map frames i frame := by
  refine ⟨handedOut map n, h.calls_eq n, by simp [handedOut], fun i frame hi => ?_⟩
  obtain ⟨a, ha, rfl⟩ := handedOut_eq_some hi
  obtain ⟨r, hr, hcontains⟩ := exists_contains (List.mem_of_getElem? ha)
  refine ⟨?_, ⟨a, rfl, usable_of_contains hr hcontains⟩, fun hwhole b hb => ?_, fun hwhole j hj => ?_⟩
  · exact pageBase_pageBase a
  · obtain ⟨r', hr', rfl⟩ := exists_region hr
    exact usable_of_contains hr (hcontains.of_not_cuts (hwhole r' hr') hb)
  · obtain ⟨b, hb, hpage⟩ := handedOut_eq_some hj
    exact (h.eq_of_whole ha hb hpage.symm hwhole).symm

/-- Two regions, with something else between them that ends inside of a page. -/
theorem exclusive_calls_gap :
    let map : List BootRegion :=
      [⟨0x1000, 0x3000, .usable⟩, ⟨0x3000, 0x4800, .bios⟩, ⟨0x4800, 0x6000, .usable⟩]
    let frames := [some 0x1000, some 0x2000, some 0x4000, some 0x5000, none]
    Tidy map ∧ (ofBootMap map).calls 5 = .ok (frames, ⟨(ofBootMap map).usable, 5⟩) ∧
      Whole map 0x5000 ∧ Held map frames 3 0x5000 := by
  intro map frames
  have htidy : Tidy map := {
    disjoint := List.pairwise_pair.2 (Range.disjoint_of_le (by decide))
    physical := by decide }
  obtain ⟨frames', hcalls, -, hheld⟩ := exclusive_calls htidy 5
  have hframes : frames' = frames := by
    have heq : (ofBootMap map).calls 5 = .ok (frames, ⟨(ofBootMap map).usable, 5⟩) := by decide +kernel
    cases hcalls.symm.trans heq
    rfl
  subst hframes
  exact ⟨htidy, hcalls, by decide, hheld 3 0x5000 rfl⟩

/-- Two regions that share out the bytes of a page with something else: both calls get that page, and with it
bytes that are not usable. -/
theorem shared_frame :
    let map : List BootRegion :=
      [⟨0x1000, 0x1800, .usable⟩, ⟨0x1800, 0x1c00, .usable⟩, ⟨0x1c00, 0x2000, .bios⟩]
    (map.Pairwise fun r r' => r.range.Disjoint r'.range) ∧ (∀ r ∈ map, r.stop.toNat ≤ 0x10000000000000) ∧
      (ofBootMap map).calls 2 = .ok ([some 0x1000, some 0x1000], ⟨(ofBootMap map).usable, 2⟩) ∧
      pageBase 0x1c00 = 0x1000 ∧ ¬ Usable map 0x1c00 := by
  intro map
  refine ⟨?_, by decide, by decide +kernel, rfl, ?_⟩
  · have hle : map.Pairwise fun r r' => r.stop ≤ r'.start := by decide
    exact hle.imp Range.disjoint_of_le
  · have hnone : ∀ r ∈ map, r.kind = .usable → ¬ r.range.Contains 0x1c00 := by decide
    rintro ⟨r, hr, hkind, hcontains⟩
    exact hnone r hr hkind hcontains

end EnvKernel.Memory
