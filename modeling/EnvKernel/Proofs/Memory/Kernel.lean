import EnvKernel.Memory.Kernel
import EnvKernel.Proofs.Memory.Paging

/-!
The kernel's address space. Mapping gives a page a fresh frame of zeros or leaves it as it is
(`addPage_cases`), so a space only grows (`grows_map`). Writing checks the addresses that the processor
would take the given ones as, and then stores at the given ones: `write_checked` says that all is stored
where it was checked if the processor takes each of the addresses as it is. Where it does not, mapping
and the check succeed, and the store is a fault behind the bytes for the addresses before:
`fault_behind_check`.
-/

namespace EnvKernel.Memory.KernelSpace

variable {s s' s'' : KernelSpace} {base page frame addr : UInt64} {range : Range}

/-- The frame of a page. -/
def frame? (s : KernelSpace) (page : UInt64) : Option UInt64 := s.memory.manager.tables.frame? page

/-- Where frames come from. -/
def frames (s : KernelSpace) : FrameAllocator := s.memory.manager.frames

theorem isMapped_eq (hbase : pageBase base = base) (h : virtual? base = some page) :
    s.isMapped base = (s.frame? page).isSome := by
  simp only [isMapped, h, PageTables.toPhysical?, Option.isSome_map, pageBase_of_virtual? hbase h]
  rfl

theorem page?_eq (s : KernelSpace) (page : UInt64) :
    PageStore.page? s.memory page = (s.frame? page).map s.memory.physical.frame := rfl

theorem isSome_page? (s : KernelSpace) (page : UInt64) :
    (PageStore.page? s.memory page).isSome = (s.frame? page).isSome := Option.isSome_map

/-- The page of an address that the processor takes as it is is mapped if the page is there. -/
theorem isMapped_pageBase {a : UInt64} (h : Canonical a) :
    s.isMapped (pageBase a) = (PageStore.page? s.memory (pageBase a)).isSome := by
  rw [isMapped_eq (pageBase_pageBase a) (canonical_pageBase.2 h), isSome_page?]

/-! ### Mapping -/

/-- The space `s'` is `s` with a fresh frame of zeros for a page. -/
structure Backs (s : KernelSpace) (page frame : UInt64) (s' : KernelSpace) : Prop where
  missing : s.frame? page = none
  manager : MemoryManager.Backs s.memory.manager page frame s'.memory.manager
  physical : s'.memory.physical = ⟨s.memory.physical.frames.insert frame (Page.fill 0)⟩

/-- Mapping did not succeed for want of a frame. The pages that have frames are the same. -/
inductive Fails (s : KernelSpace) : Effect KernelSpace MemoryError Unit → Prop where
  | ranOut {s' : KernelSpace} {base : UInt64} {said : List Output}
    (drawn : s.memory.manager.Drawn s'.memory.manager) (ranOut : s.frames.RanOut s'.frames) :
    Fails s ⟨.error (.mapFailed base), s', said⟩
  /-- The allocator came upon an address that is not physical. -/
  | stopped {s' : KernelSpace} {said : List Output}
    (drawn : s.memory.manager.Drawn s'.memory.manager) (notPhysical : ¬ s.frames.Physical) :
    Fails s ⟨.stop (.panic .physicalAddress), s', said⟩

theorem Backs.frame?_eq (h : Backs s page frame s') (other : UInt64) :
    s'.frame? other = if other = page then some frame else s.frame? other := by
  rw [frame?, PageTables.frame?, h.manager.pages, Std.TreeMap.getElem?_insert]
  simp only [Std.LawfulEqCmp.compare_eq_iff_eq, eq_comm (a := page)]
  rfl

/-- Mapping a page changes the tables and the frames only. -/
theorem mapping_eq {outcome : Outcome MapError UInt64} {m' : MemoryManager} {said : List Output}
    (h : MemoryManager.map page s.memory.manager = ⟨outcome, m', said⟩) :
    (KernelMemory.onManager (MemoryManager.map page)).onPart KernelSpace.memory
      (fun memory s => { s with memory }) s =
        ⟨outcome, { s with memory := { s.memory with manager := m' } }, said⟩ := by
  simp only [KernelMemory.onManager, Action.onPart, h]

theorem addFresh_cases (base : UInt64) (hnone : s.frame? page = none) :
    (∃ frame s', Backs s page frame s' ∧ addFresh base page s = ⟨.ok (), s', []⟩) ∨
      Fails s (addFresh base page s) := by
  rw [addFresh]
  rcases s.memory.manager.map_cases hnone with ⟨frame, m', hbacks, hmap⟩ | hfails
  · have hframe : m'.tables.frame? page = some frame := by
      rw [PageTables.frame?, hbacks.pages, Std.TreeMap.getElem?_insert_self]
    have hzeros : PageStore.setPage { s.memory with manager := m' } page (Page.fill 0) =
        ⟨m', ⟨s.memory.physical.frames.insert frame (Page.fill 0)⟩⟩ := by
      simp only [PageStore.setPage, hframe]
    rw [Action.bind_of_ok (Action.attempt_of_ok (mapping_eq hmap))]
    refine .inl ⟨frame, ⟨⟨m', _⟩, base :: s.own⟩, ⟨hnone, hbacks, rfl⟩, ?_⟩
    rw [← hzeros]
    rfl
  · generalize hmap : MemoryManager.map page s.memory.manager = e at hfails
    cases hfails with
    | ranOut drawn ranOut =>
      rw [Action.bind_of_ok (Action.attempt_of_error (mapping_eq hmap))]
      exact .inr (.ranOut drawn ranOut)
    | stopped drawn notPhysical =>
      rw [Action.bind_of_stop (Action.attempt_of_stop (mapping_eq hmap))]
      exact .inr (.stopped drawn notPhysical)

/-- A page that is asked for is no page, is there already, gets a fresh frame, or cannot get one. -/
theorem addPage_cases (s : KernelSpace) (hbase : pageBase base = base) :
    (virtual? base = none ∧ addPage base s = ⟨.error (.mapFailed base), s, []⟩) ∨
      ∃ page, virtual? base = some page ∧
        (((s.frame? page).isSome = true ∧ ∃ said, addPage base s = ⟨.ok (), s, said⟩) ∨
          (∃ frame s', Backs s page frame s' ∧ addPage base s = ⟨.ok (), s', []⟩) ∨
            Fails s (addPage base s)) := by
  rw [addPage]
  cases hpage : virtual? base with
  | none => exact .inl ⟨rfl, rfl⟩
  | some page =>
    refine .inr ⟨page, rfl, ?_⟩
    dsimp only
    rw [Action.bind_state_apply]
    have hmapped : s.isMapped page = (s.frame? page).isSome :=
      isMapped_eq (pageBase_of_virtual? hbase hpage) (canonical_of_virtual? hpage)
    by_cases hthere : s.isMapped page = true
    · rw [if_pos hthere]
      refine .inl ⟨hmapped ▸ hthere, ?_⟩
      split
      · exact ⟨[], rfl⟩
      · exact ⟨_, rfl⟩
    · rw [if_neg hthere]
      rw [hmapped, Option.not_isSome_iff_eq_none] at hthere
      exact .inr (addFresh_cases base hthere)

/-- Only pages whose addresses the processor takes as they are have frames. -/
def Proper (s : KernelSpace) : Prop := ∀ page, (s.frame? page).isSome = true → Canonical page

/-- The space `s'` is `s` after some requests: frames were taken, and pages that had frames have them
still. -/
structure Grows (s s' : KernelSpace) : Prop where
  frames : s.frames.Drawn s'.frames
  kept : ∀ page frame, s.frame? page = some frame → s'.frame? page = some frame
  proper : s.Proper → s'.Proper

theorem Grows.refl (s : KernelSpace) : s.Grows s := ⟨.refl _, fun _ _ h => h, id⟩

theorem Grows.trans (h : s.Grows s') (h' : s'.Grows s'') : s.Grows s'' :=
  ⟨h.frames.trans h'.frames, fun page frame hframe => h'.kept page frame (h.kept page frame hframe),
    h'.proper ∘ h.proper⟩

theorem Grows.of_same_pages (hframes : s.frames.Drawn s'.frames) (hframe : s'.frame? = s.frame?) :
    s.Grows s' where
  frames := hframes
  kept _ _ h := hframe ▸ h
  proper h := by rwa [Proper, hframe]

theorem Grows.isMapped (h : s.Grows s') (hbase : pageBase base = base) (hmapped : s.isMapped base = true) :
    s'.isMapped base = true := by
  cases hpage : virtual? base with
  | none => simp [KernelSpace.isMapped, hpage] at hmapped
  | some page =>
    rw [isMapped_eq hbase hpage] at hmapped ⊢
    obtain ⟨frame, hframe⟩ := Option.isSome_iff_exists.1 hmapped
    rw [h.kept page frame hframe]
    rfl

theorem Backs.grows (h : Backs s page frame s') (hpage : Canonical page) : s.Grows s' where
  frames := s.frames.drawn_after.trans h.manager.taken
  kept other frame' hother := by
    rw [h.frame?_eq, if_neg, hother]
    rintro rfl
    rw [h.missing] at hother
    cases hother
  proper hproper other hother := by
    rw [h.frame?_eq] at hother
    split at hother
    · rename_i heq
      exact heq ▸ hpage
    · exact hproper other hother

theorem Fails.drawn {e : Effect KernelSpace MemoryError Unit} (h : Fails s e) :
    s.memory.manager.Drawn e.state.memory.manager := by
  cases h with
  | ranOut drawn _ => exact drawn
  | stopped drawn _ => exact drawn

theorem Fails.grows {e : Effect KernelSpace MemoryError Unit} (h : Fails s e) : s.Grows e.state := by
  have hframe : e.state.frame? = s.frame? := by
    funext page
    rw [frame?, PageTables.frame?, h.drawn.pages]
    rfl
  exact .of_same_pages h.drawn.frames hframe

theorem Fails.ne_ok {e : Effect KernelSpace MemoryError Unit} (h : Fails s e) : e.outcome ≠ .ok () := by
  cases h <;> nofun

theorem Fails.ranOut_of_physical {e : Effect KernelSpace MemoryError Unit} (h : Fails s e)
    (hphysical : s.frames.Physical) : s.frames.RanOut e.state.frames := by
  cases h with
  | ranOut _ ranOut => exact ranOut
  | stopped _ notPhysical => exact absurd hphysical notPhysical

theorem grows_addPage (s : KernelSpace) (hbase : pageBase base = base) : s.Grows (addPage base s).state := by
  rcases s.addPage_cases hbase with
    ⟨-, hadd⟩ | ⟨page, hpage, ⟨-, said, hadd⟩ | ⟨frame, s', hbacks, hadd⟩ | hfails⟩
  · rw [hadd]
    exact .refl s
  · rw [hadd]
    exact .refl s
  · rw [hadd]
    exact hbacks.grows (canonical_of_virtual? hpage)
  · exact hfails.grows

section Run

variable {run : PageRun}

theorem grows_addPages (s : KernelSpace) (count i : Nat)
    (hbases : ∀ j, i ≤ j → j < i + count → pageBase (run.base j) = run.base j) :
    s.Grows (addPages run count i s).state := by
  induction count generalizing s i with
  | zero => exact .refl s
  | succ count ih =>
    have hfirst := s.grows_addPage (hbases i (Nat.le_refl i) (by omega))
    exact Action.bind_keeps hfirst fun _ _ =>
      hfirst.trans (ih _ (i + 1) fun j hij hj => hbases j (by omega) (by omega))

/-- If mapping succeeds, all pages of the run are mapped. -/
theorem isMapped_addPages (s : KernelSpace) (count i : Nat)
    (hbases : ∀ j, i ≤ j → j < i + count → pageBase (run.base j) = run.base j)
    (hok : (addPages run count i s).outcome = .ok ()) {j : Nat} (hij : i ≤ j) (hj : j < i + count) :
    (addPages run count i s).state.isMapped (run.base j) = true := by
  induction count generalizing s i with
  | zero => omega
  | succ count ih =>
    have hbase := hbases i (Nat.le_refl i) (by omega)
    have hrest : ∀ j, i + 1 ≤ j → j < i + 1 + count → pageBase (run.base j) = run.base j :=
      fun j hij hj => hbases j (by omega) (by omega)
    -- the first page is mapped, and then the others are without losing it
    have hstep : ∀ s₁ said, addPage (run.base i) s = ⟨.ok (), s₁, said⟩ →
        s₁.isMapped (run.base i) = true →
          (addPages run (count + 1) i s).state.isMapped (run.base j) = true := by
      intro s₁ said hadd hmapped
      rw [addPages, Action.bind_of_ok hadd] at hok ⊢
      rcases Nat.eq_or_lt_of_le hij with rfl | hlt
      · exact (grows_addPages s₁ count (i + 1) hrest).isMapped hbase hmapped
      · exact ih s₁ (i + 1) hrest hok hlt (by omega)
    rcases s.addPage_cases hbase with
      ⟨-, hadd⟩ | ⟨page, hpage, ⟨hthere, said, hadd⟩ | ⟨frame, s₁, hbacks, hadd⟩ | hfails⟩
    · rw [addPages, Action.bind_of_error hadd] at hok
      cases hok
    · exact hstep s said hadd ((isMapped_eq hbase hpage).trans hthere)
    · refine hstep s₁ [] hadd ((isMapped_eq hbase hpage).trans ?_)
      rw [hbacks.frame?_eq, if_pos rfl]
      rfl
    · rw [addPages, Action.bind_eq_ok_iff] at hok
      obtain ⟨_, hfirst, -⟩ := hok
      exact absurd hfirst hfails.ne_ok

end Run

theorem map_of_reversed (h : range.stop < range.start) (s : KernelSpace) :
    map range s = ⟨.error (.badRange range.start range.stop), s, []⟩ := by
  rw [map, pages, if_pos h]
  rfl

theorem map_eq (h : range.start ≤ range.stop) (s : KernelSpace) : map range s =
    addPages (touched range.start (range.stop.toNat - range.start.toNat))
      (touched range.start (range.stop.toNat - range.start.toNat)).count.toNat 0 s := by
  rw [map, pages_eq h]
  rfl

theorem pageBase_touched (h : range.start ≤ range.stop) {j : Nat}
    (hj : j < (touched range.start (range.stop.toNat - range.start.toNat)).count.toNat) :
    pageBase ((touched range.start (range.stop.toNat - range.start.toNat)).base j) =
      (touched range.start (range.stop.toNat - range.start.toNat)).base j :=
  pageBase_base h (pages_eq h) hj

theorem grows_map (s : KernelSpace) (range : Range) : s.Grows (map range s).state := by
  by_cases h : range.start ≤ range.stop
  · rw [map_eq h]
    exact grows_addPages s _ 0 fun j _ hj => pageBase_touched h (by omega)
  · rw [map_of_reversed (UInt64.not_le.1 h)]
    exact .refl s

/-- If a range was mapped, the pages of all of its addresses are mapped. -/
theorem isMapped_map (hok : (map range s).outcome = .ok ()) {a : UInt64} (ha : range.Contains a) :
    (map range s).state.isMapped (pageBase a) = true := by
  have h : range.start ≤ range.stop := UInt64.le_iff_toNat_le.2 (Nat.le_of_lt (Nat.lt_of_le_of_lt ha.1 ha.2))
  rw [map_eq h] at hok ⊢
  have hrange := ha.2
  obtain ⟨j, hj, hbase⟩ := exists_base_of_mem (Range.fits h) ha.1 (by have := ha.1; omega)
  rw [← hbase]
  exact isMapped_addPages s _ 0 (fun j _ hj => pageBase_touched h (by omega)) hok (Nat.zero_le j) (by omega)

/-! ### Writing -/

/-- An access to `len` bytes from `addr` on gets past the check. -/
def Passes (s : KernelSpace) (addr : UInt64) (len : Nat) : Prop :=
  addr.toNat + len < 0x10000000000000000 ∧ s.checkMapped addr (touched addr len) = .ok ()

instance (s : KernelSpace) (addr : UInt64) (len : Nat) : Decidable (s.Passes addr len) :=
  inferInstanceAs (Decidable (_ ∧ _))

theorem checkMapped_eq_ok_iff {run : PageRun} : s.checkMapped addr run = .ok () ↔
    ∀ j < run.count.toNat, s.isMapped (run.base j) = true := by
  rw [checkMapped, PageRun.find?]
  rcases findFrom_cases run (fun base => !s.isMapped base) run.count.toNat 0 with
    ⟨hnone, hall⟩ | ⟨k, -, hk, hsome, hmissing, -⟩
  · rw [hnone]
    refine ⟨fun _ j hj => ?_, fun _ => rfl⟩
    simpa using hall j (Nat.zero_le j) (by omega)
  · rw [hsome]
    constructor
    · intro h
      cases h
    · intro hall
      have hmapped := hall k (by omega)
      simp [hmapped] at hmissing

/-- An access gets past the check if the processor can take all of its addresses as such of mapped pages. -/
theorem passes_iff {len : Nat} : s.Passes addr len ↔ addr.toNat + len < 0x10000000000000000 ∧
    ∀ a : UInt64, addr.toNat ≤ a.toNat → a.toNat < addr.toNat + len → s.isMapped (pageBase a) = true := by
  rw [Passes, checkMapped_eq_ok_iff]
  refine and_congr_right fun hfit => ⟨fun h a hle hlt => ?_, fun h j hj => ?_⟩
  · obtain ⟨j, hj, hbase⟩ := exists_base_of_mem (Nat.le_of_lt hfit) hle hlt
    exact hbase ▸ h j hj
  · obtain ⟨hle, hlt, hbase⟩ := max_base_mem (Nat.le_of_lt hfit) hj
    exact hbase ▸ h _ hle hlt

section Write

variable {source : Array UInt8}

theorem write_of_wraps (h : 0x10000000000000000 ≤ addr.toNat + source.size) :
    write addr source s = ⟨.error (.badRange addr Word.max), s, []⟩ := by
  rw [write, Word.advance?, if_neg (Nat.not_lt.2 h)]
  rfl

section Fits

variable (hfit : addr.toNat + source.size < 0x10000000000000000)

include hfit

theorem write_of_error {e : MemoryError} (h : s.checkMapped addr (touched addr source.size) = .error e) :
    write addr source s = ⟨.error e, s, []⟩ := by
  have hstop : Word.advance? addr source.size = some (addr + UInt64.ofNat source.size) := if_pos hfit
  simp only [write, hstop, pages_advance? hstop, Action.bind_ofExcept_apply, Action.bind_state_apply, h]
  rfl

theorem write_of_ok (h : s.checkMapped addr (touched addr source.size) = .ok ())
    (hthere : missing? s.memory (touched addr source.size) = none) :
    write addr source s = ⟨.ok (), { s with memory := copyIn s.memory addr source }, []⟩ := by
  have hstop : Word.advance? addr source.size = some (addr + UInt64.ofNat source.size) := if_pos hfit
  simp only [write, hstop, pages_advance? hstop, Action.bind_ofExcept_apply, Action.bind_state_apply, h,
    hthere]
  rfl

theorem write_of_missing (h : s.checkMapped addr (touched addr source.size) = .ok ())
    (hmissing : missing? s.memory (touched addr source.size) = some base) :
    write addr source s =
      ⟨.stop (.fault (faultAddress (max base addr))), s.storeBefore addr source (max base addr), []⟩ := by
  have hstop : Word.advance? addr source.size = some (addr + UInt64.ofNat source.size) := if_pos hfit
  simp only [write, hstop, pages_advance? hstop, Action.bind_ofExcept_apply, Action.bind_state_apply, h,
    hmissing]
  rfl

end Fits

/-- The processor takes the address as it is, and its page is there. -/
def Taken (s : KernelSpace) (a : UInt64) : Prop :=
  Canonical a ∧ (s.memory.manager.tables.toPhysical? a).isSome = true

/-- What a write comes to. Only one that gets past its check stores anything, and where it stores its
bytes are addresses that were checked. -/
inductive Written (s : KernelSpace) (addr : UInt64) (source : Array UInt8) :
    Effect KernelSpace MemoryError Unit → Prop where
  | refused (e : MemoryError) (checked : ¬ s.Passes addr source.size) :
    Written s addr source ⟨.error e, s, []⟩
  | stored (checked : s.Passes addr source.size)
    (taken : ∀ a : UInt64, addr.toNat ≤ a.toNat → a.toNat < addr.toNat + source.size → s.Taken a) :
    Written s addr source ⟨.ok (), { s with memory := copyIn s.memory addr source }, []⟩
  /-- The processor does not take the address `place` as it was given. It is the first such address, and
  the bytes for those before it are stored. -/
  | fault (place : UInt64) (checked : s.Passes addr source.size) (first : addr.toNat ≤ place.toNat)
    (last : place.toNat < addr.toNat + source.size) (notTaken : ¬ Canonical place)
    (before : ∀ a : UInt64, addr.toNat ≤ a.toNat → a.toNat < place.toNat → s.Taken a) :
    Written s addr source ⟨.stop (.fault 0), s.storeBefore addr source place, []⟩

/-- Bytes that are there are at addresses that the processor takes as they are. -/
theorem Proper.taken (h : s.Proper) {a : UInt64} (hbyte : (byte? s.memory a).isSome = true) : s.Taken a := by
  rw [isSome_byte?, isSome_page?] at hbyte
  refine ⟨canonical_pageBase.1 (h _ hbyte), ?_⟩
  rw [PageTables.toPhysical?, Option.isSome_map]
  exact hbyte

theorem written (h : s.Proper) (addr : UInt64) (source : Array UInt8) :
    Written s addr source (write addr source s) := by
  by_cases hfit : addr.toNat + source.size < 0x10000000000000000
  · cases hcheck : s.checkMapped addr (touched addr source.size) with
    | error e =>
      rw [write_of_error hfit hcheck]
      refine .refused e fun hpasses => ?_
      rw [hpasses.2] at hcheck
      cases hcheck
    | ok _ =>
      have hpasses : s.Passes addr source.size := ⟨hfit, hcheck⟩
      rcases missing?_touched_cases (s := s.memory) (Nat.le_of_lt hfit) with
        ⟨hthere, hmapped⟩ | ⟨base, hmissing, hle, hlt, hnone, hbefore⟩
      · rw [write_of_ok hfit hcheck hthere]
        exact .stored hpasses fun a hle hlt => h.taken (hmapped a hle hlt)
      · -- what the check went by is another address than this one
        have hnot : ¬ Canonical (max base addr) := by
          intro hcanonical
          have hpage := (passes_iff.1 hpasses).2 _ hle hlt
          rw [isMapped_pageBase hcanonical, ← isSome_byte?, hnone] at hpage
          cases hpage
        have hfault : faultAddress (max base addr) = 0 := if_neg hnot
        rw [write_of_missing hfit hcheck hmissing, hfault]
        exact .fault _ hpasses hle hlt hnot fun a hle hlt => h.taken (hbefore a hle hlt)
  · rw [write_of_wraps (Nat.not_lt.1 hfit)]
    exact .refused _ fun hpasses => hfit hpasses.1

theorem manager_copyIn (m : KernelMemory) (addr : UInt64) (source : Array UInt8) :
    (copyIn m addr source).manager = m.manager := by
  unfold copyIn
  fun_induction copyInFrom m addr source 0 with
  | case1 m done hlt place offset count next ih =>
    rw [ih]
    simp only [next]
    split
    · simp only [PageStore.setPage]
      split <;> rfl
    · rfl
  | case2 => rfl

/-- What a write comes to whatever the tables are: an error that changes nothing, a fault on the way, or
a copy. -/
theorem write_cases (s : KernelSpace) (addr : UInt64) (source : Array UInt8) :
    (∃ e, write addr source s = ⟨.error e, s, []⟩) ∨
      (∃ place, write addr source s =
        ⟨.stop (.fault (faultAddress place)), s.storeBefore addr source place, []⟩) ∨
      write addr source s = ⟨.ok (), { s with memory := copyIn s.memory addr source }, []⟩ := by
  by_cases hfit : addr.toNat + source.size < 0x10000000000000000
  · cases hcheck : s.checkMapped addr (touched addr source.size) with
    | error e => exact .inl ⟨e, write_of_error hfit hcheck⟩
    | ok _ =>
      cases hmissing : missing? s.memory (touched addr source.size) with
      | some base => exact .inr (.inl ⟨_, write_of_missing hfit hcheck hmissing⟩)
      | none => exact .inr (.inr (write_of_ok hfit hcheck hmissing))
  · exact .inl ⟨_, write_of_wraps (Nat.not_lt.1 hfit)⟩

/-- Writing changes neither tables nor frames. -/
theorem manager_write (s : KernelSpace) (addr : UInt64) (source : Array UInt8) :
    (write addr source s).state.memory.manager = s.memory.manager := by
  rcases s.write_cases addr source with ⟨e, hwrite⟩ | ⟨place, hwrite⟩ | hwrite <;> rw [hwrite]
  · exact manager_copyIn s.memory addr _
  · exact manager_copyIn s.memory addr source

theorem grows_write (s : KernelSpace) (addr : UInt64) (source : Array UInt8) :
    s.Grows (write addr source s).state := by
  have hmanager := s.manager_write addr source
  have hframes : (write addr source s).state.frames = s.frames := congrArg MemoryManager.frames hmanager
  have hframe : (write addr source s).state.frame? = s.frame? :=
    congrArg (fun m : MemoryManager => m.tables.frame?) hmanager
  exact .of_same_pages (hframes ▸ .refl _) hframe

end Write

/-- What mapping a range leaves: if it succeeded, every access to a part of the range gets past the
check, and a write there succeeds if the processor takes its addresses as they are. -/
structure Accessible (range : Range) (s : KernelSpace) : Prop where
  passes : ∀ (addr : UInt64) (len : Nat), range.start ≤ addr → addr.toNat + len ≤ range.stop.toNat →
    s.Passes addr len
  write_eq_ok_iff : ∀ (addr : UInt64) (source : Array UInt8), range.start ≤ addr →
    addr.toNat + source.size ≤ range.stop.toNat → ((write addr source s).outcome = .ok () ↔
      ∀ a : UInt64, addr.toNat ≤ a.toNat → a.toNat < addr.toNat + source.size → Canonical a)

theorem accessible_map (h : s.Proper) (hok : (map range s).outcome = .ok ()) :
    Accessible range (map range s).state := by
  have hpasses : ∀ (addr : UInt64) (len : Nat), range.start ≤ addr → addr.toNat + len ≤ range.stop.toNat →
      (map range s).state.Passes addr len := by
    intro addr len hstart hstop
    have hlt := range.stop.toNat_lt
    rw [UInt64.le_iff_toNat_le] at hstart
    exact passes_iff.2 ⟨by omega, fun a hle hlt => isMapped_map hok ⟨by omega, by omega⟩⟩
  refine ⟨hpasses, fun addr source hstart hstop => ?_⟩
  have hchecked := hpasses addr source.size hstart hstop
  have hwritten := written ((s.grows_map range).proper h) addr source
  generalize write addr source (map range s).state = e at hwritten
  cases hwritten with
  | refused e checked => exact absurd hchecked checked
  | stored _ taken => exact ⟨fun _ a hle hlt => (taken a hle hlt).1, fun _ => rfl⟩
  | fault place _ first last notTaken _ => exact ⟨nofun, fun h => absurd (h place first last) notTaken⟩

/-- A write past the check stores at the addresses that were checked, all of them or those before the
first that the processor takes as another one or not at all, where it faults. -/
theorem write_checked (h : s.Proper) :
    (∀ addr source, Written s addr source (write addr source s) ∧ (write addr source s).state.Proper) ∧
      ∀ range, (map range s).state.Proper ∧
        ((map range s).outcome = .ok () → Accessible range (map range s).state) := by
  exact ⟨fun addr source => ⟨written h addr source, (s.grows_write addr source).proper h⟩, fun range =>
    ⟨(s.grows_map range).proper h, accessible_map h⟩⟩

/-- Two pages in the lower half, and a write across their boundary. -/
theorem write_checked_crossing :
    let s : KernelSpace := { memory := { manager := { frames := .ofBootMap [⟨0x1000, 0x300000, .usable⟩] } } }
    let s' := (map ⟨0x400000, 0x402000⟩ s).state
    s.Proper ∧ (map ⟨0x400000, 0x402000⟩ s).outcome = .ok () ∧
      (write 0x400ffe #[1, 2, 3, 4] s').outcome = .ok () := by
  intro s s'
  have hproper : s.Proper := nofun
  have hok : (map ⟨0x400000, 0x402000⟩ s).outcome = .ok () := by decide +kernel
  have haccessible := ((write_checked hproper).2 ⟨0x400000, 0x402000⟩).2 hok
  refine ⟨hproper, hok, (haccessible.write_eq_ok_iff 0x400ffe #[1, 2, 3, 4] (by decide) (by decide)).2 ?_⟩
  intro a _ hlt
  have hend : a.toNat < 0x400ffe + 4 := hlt
  exact canonical_iff.2 (.inl (by omega))

/-- A write that goes on behind the last address of the lower half stores two bytes, and the third is a
fault. -/
example :
    let s : KernelSpace := { memory := { manager := { frames := .ofBootMap [⟨0x1000, 0x300000, .usable⟩] } } }
    let s' := (map ⟨0x7ffffffff000, 0x800000001000⟩ s).state
    (map ⟨0x7ffffffff000, 0x800000001000⟩ s).outcome = .ok () ∧ write 0x7ffffffffffe #[1, 2, 3] s' =
      ⟨.stop (.fault 0), { s' with memory := copyIn s'.memory 0x7ffffffffffe #[1, 2] }, []⟩ := by
  intro s s'
  let source : Array UInt8 := #[1, 2, 3]
  have hmissing : missing? s'.memory (touched 0x7ffffffffffe source.size) = some 0x800000000000 := by
    decide +kernel
  have hwrite := write_of_missing (by decide) (by decide +kernel) hmissing
  have hplace : max 0x800000000000 0x7ffffffffffe = (0x800000000000 : UInt64) := by decide
  have hfault : faultAddress 0x800000000000 = 0 := by decide
  have hbefore : source.extract 0 ((0x800000000000 : UInt64).toNat - (0x7ffffffffffe : UInt64).toNat) =
      #[1, 2] := by decide
  rw [hplace, hfault, storeBefore, hbefore] at hwrite
  exact ⟨by decide +kernel, hwrite⟩

/-- A page that is asked for by an address without its high bits. It is mapped and checked with them, but
the bytes are stored without. -/
theorem fault_behind_check :
    let s : KernelSpace := { memory := { manager := { frames := .ofBootMap [⟨0x1000, 0x300000, .usable⟩] } } }
    let s' := (map ⟨0x800000000000, 0x800000001000⟩ s).state
    s.Proper ∧ (map ⟨0x800000000000, 0x800000001000⟩ s).outcome = .ok () ∧ s'.Passes 0x800000000000 1 ∧
      s'.frame? 0x800000000000 = none ∧ (write 0x800000000000 #[1] s').outcome = .stop (.fault 0) := by
  intro s s'
  exact ⟨nofun, by decide +kernel, by decide +kernel, by decide +kernel, by decide +kernel⟩

end EnvKernel.Memory.KernelSpace
