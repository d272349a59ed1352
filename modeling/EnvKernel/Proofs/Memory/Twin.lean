import EnvKernel.Proofs.Memory.Access
import EnvKernel.Proofs.Memory.Kernel

/-!
The kernel's address space beside a sparse one. `Twin` says what the two have in common while they get
the same requests: the same pages with the same bytes, and in the kernel's space a frame for each page
that no other page has. Every request keeps that and gets the same answer from both, unless the kernel
runs out of frames. So the answers to all requests in a row are the same, and so is the memory in the
end: `serveAll_alike`.
-/

namespace EnvKernel.Memory

/-! ### Requests -/

/-- What an address space is asked for. -/
inductive Request where
  | map (range : Range)
  | write (addr : UInt64) (source : Array UInt8)

namespace Request

/-- The address lies in the range that is to be mapped or written. -/
def Touches : Request → UInt64 → Prop
  | map range, a => range.Contains a
  | write addr source, a => addr.toNat ≤ a.toNat ∧ a.toNat < addr.toNat + source.size

/-- The address lies in the range that is to be written. -/
def Writes : Request → UInt64 → Prop
  | map _, _ => False
  | write addr source, a => addr.toNat ≤ a.toNat ∧ a.toNat < addr.toNat + source.size

/-- What an address space does. -/
def action {σ : Type} [AddressSpace σ] : Request → Action σ MemoryError Unit
  | map range => AddressSpace.map range
  | write addr source => AddressSpace.write addr source

end Request

/-- An address space answers a request. -/
def serve {σ : Type} [AddressSpace σ] (s : σ) (request : Request) : Outcome MemoryError Unit × σ :=
  ((request.action s).outcome, (request.action s).state)

/-! ### Copies into two stores -/

/-- Copying into two stores keeps what they have in common, if they have the same pages where the bytes
go and if replacing one of these pages keeps it. -/
theorem copyInFrom_related {σ τ : Type} [PageStore σ] [PageStore τ] {R : σ → τ → Prop} {P : UInt64 → Prop}
    {addr : UInt64} {source : Array UInt8}
    (hpage : ∀ s t base, R s t → P base → PageStore.page? s base = PageStore.page? t base)
    (hset : ∀ s t base old page, R s t → P base → PageStore.page? s base = some old →
      R (PageStore.setPage s base page) (PageStore.setPage t base page))
    (hall : ∀ i < source.size, P (pageBase (addr + UInt64.ofNat i))) (s : σ) (done : Nat) :
    ∀ t, R s t → R (copyInFrom s addr source done) (copyInFrom t addr source done) := by
  fun_induction copyInFrom s addr source done with
  | case1 s done hmore place offset count next ih =>
    intro t h
    have hsame := hpage s t _ h (hall done hmore)
    rw [copyInFrom.eq_def t, if_pos hmore]
    refine ih _ ?_
    simp only [next, ← hsame]
    cases hthere : PageStore.page? s (pageBase (addr + UInt64.ofNat done)) with
    | none => exact h
    | some page => exact hset s t _ page _ h (hall done hmore) hthere
  | case2 s done hless =>
    intro t h
    rw [copyInFrom.eq_def t, if_neg hless]
    exact h

/-! ### Two spaces -/

/-- No two calls for a frame get the same one. -/
def Distinct (usable : List Range) : Prop :=
  ∀ (i j : Nat) (a b : UInt64), (addresses usable)[i]? = some a → (addresses usable)[j]? = some b →
    pageBase a = pageBase b → i = j

theorem Tidy.distinct {map : List BootRegion} (h : Tidy map) (haligned : Aligned map) :
    Distinct (FrameAllocator.ofBootMap map).usable :=
  fun _ _ a _ ha hb hpage => h.eq_of_whole ha hb hpage (haligned.whole (pageBase_pageBase a))

theorem PhysicalMemory.frame_insert (p : PhysicalMemory) (frame other : UInt64) (page : Page) :
    (PhysicalMemory.mk (p.frames.insert frame page)).frame other =
      if other = frame then page else p.frame other := by
  rw [PhysicalMemory.frame, getElem?_insert_page]
  split <;> rfl

/-- A page of a sparse space is replaced, which need not have been there before. -/
theorem SparseSpace.page?_setPage (s : SparseSpace) (base other : UInt64) (page : Page) :
    PageStore.page? (PageStore.setPage s base page) other =
      if other = base then some page else PageStore.page? s other :=
  getElem?_insert_page s.pages base other page

/-- The frame was handed out between `start` and `k`. -/
def Handed (start k : KernelSpace) (frame : UInt64) : Prop :=
  ∃ i, start.frames.next ≤ i ∧ i < k.frames.next ∧
    ∃ a, (addresses k.frames.usable)[i]? = some a ∧ pageBase a = frame

/-- The kernel's space `k` and the sparse space `s` have the same pages, apart from those that the
kernel's space had when it was `start`, and no two of them share a frame. -/
structure Twin (start k : KernelSpace) (s : SparseSpace) : Prop where
  unlimited : s.limit = none
  drawn : start.frames.Drawn k.frames
  page?_eq : ∀ page, start.frame? page = none → PageStore.page? k.memory page = PageStore.page? s page
  handed : ∀ page frame, start.frame? page = none → k.frame? page = some frame → Handed start k frame
  separate : ∀ page page' frame, start.frame? page = none → start.frame? page' = none →
    k.frame? page = some frame → k.frame? page' = some frame → page = page'

/-- A fresh sparse space has the pages that the kernel's space did not have: none. -/
theorem Twin.init (start : KernelSpace) : Twin start start {} where
  unlimited := rfl
  drawn := .refl _
  page?_eq page hnew := by
    rw [KernelSpace.page?_eq, hnew]
    exact Std.TreeMap.getElem?_emptyc.symm
  handed page frame hnew hframe := by
    rw [hnew] at hframe
    cases hframe
  separate page _ frame hnew _ hframe := by
    rw [hnew] at hframe
    cases hframe

namespace Twin

variable {start k k' : KernelSpace} {s : SparseSpace} {page base frame : UInt64} {range : Range}

theorem contains_iff (h : Twin start k s) (hnew : start.frame? page = none) :
    s.pages.contains page = true ↔ (k.frame? page).isSome = true := by
  rw [← SparseSpace.isSome_page?, ← h.page?_eq page hnew, KernelSpace.isSome_page?]

section Backs

variable (h : Twin start k s) (hbacks : k.Backs page frame k') (hdistinct : Distinct k.frames.usable)

include h hbacks hdistinct

/-- A frame that comes next is not one that a page has already. -/
theorem frame_ne {other frame' : UInt64} (hnew : start.frame? other = none)
    (hother : k.frame? other = some frame') : frame' ≠ frame := by
  rintro rfl
  obtain ⟨i, -, hi, a, ha, hpage⟩ := h.handed other frame' hnew hother
  obtain ⟨b, hb, hpage'⟩ := hbacks.manager.next
  exact absurd (hdistinct i _ a b ha hb (hpage.trans hpage'.symm)) (Nat.ne_of_lt hi)

/-- A page is added to both spaces. -/
theorem backs : Twin start k' (PageStore.setPage s page (Page.fill 0)) where
  unlimited := h.unlimited
  drawn := h.drawn.trans (k.frames.drawn_after.trans hbacks.manager.taken)
  page?_eq other hother := by
    have hframes : ∀ f, k'.memory.physical.frame f =
        if f = frame then Page.fill 0 else k.memory.physical.frame f := by
      intro f
      rw [hbacks.physical, PhysicalMemory.frame_insert]
    rw [KernelSpace.page?_eq, hbacks.frame?_eq, SparseSpace.page?_setPage]
    by_cases heq : other = page
    · rw [if_pos heq, if_pos heq, Option.map_some, hframes, if_pos rfl]
    · rw [if_neg heq, if_neg heq, ← h.page?_eq other hother, KernelSpace.page?_eq]
      cases hframe : k.frame? other with
      | none => rfl
      | some f =>
        rw [Option.map_some, Option.map_some, hframes, if_neg (h.frame_ne hbacks hdistinct hother hframe)]
  handed other f hother hf := by
    have husable : k'.frames.usable = k.frames.usable := hbacks.manager.taken.usable
    have hnext : k.frames.next < k'.frames.next := hbacks.manager.taken.next
    rw [hbacks.frame?_eq] at hf
    rw [Handed, husable]
    split at hf
    · cases hf
      obtain ⟨a, ha, hpage⟩ := hbacks.manager.next
      exact ⟨k.frames.next, h.drawn.next, hnext, a, ha, hpage⟩
    · obtain ⟨i, hstart, hi, hrest⟩ := h.handed other f hother hf
      exact ⟨i, hstart, Nat.lt_trans hi hnext, hrest⟩
  separate other other' f hother hother' hf hf' := by
    rw [hbacks.frame?_eq] at hf hf'
    by_cases heq : other = page <;> by_cases heq' : other' = page
    · rw [heq, heq']
    · rw [if_pos heq] at hf
      rw [if_neg heq'] at hf'
      exact absurd (Option.some.inj hf).symm (h.frame_ne hbacks hdistinct hother' hf')
    · rw [if_neg heq] at hf
      rw [if_pos heq'] at hf'
      exact absurd (Option.some.inj hf').symm (h.frame_ne hbacks hdistinct hother hf)
    · rw [if_neg heq] at hf
      rw [if_neg heq'] at hf'
      exact h.separate other other' f hother hother' hf hf'

end Backs

/-- A page that both spaces have is replaced in both. -/
theorem setPage (h : Twin start k s) (hnew : start.frame? base = none) (hframe : k.frame? base = some frame)
    (page : Page) :
    Twin start { k with memory := PageStore.setPage k.memory base page } (PageStore.setPage s base page) := by
  have hset : PageStore.setPage k.memory base page =
      { k.memory with physical := ⟨k.memory.physical.frames.insert frame page⟩ } := by
    have hframe' : k.memory.manager.tables.frame? base = some frame := hframe
    simp only [PageStore.setPage, hframe']
  rw [hset]
  refine ⟨h.unlimited, h.drawn, fun other hother => ?_, h.handed, h.separate⟩
  rw [SparseSpace.page?_setPage, ← h.page?_eq other hother, KernelSpace.page?_eq, KernelSpace.page?_eq]
  show (k.frame? other).map (PhysicalMemory.mk (k.memory.physical.frames.insert frame page)).frame = _
  cases hf : k.frame? other with
  | none =>
    have hne : other ≠ base := by
      rintro rfl
      rw [hframe] at hf
      cases hf
    rw [if_neg hne]
    rfl
  | some f =>
    have hiff : f = frame ↔ other = base := by
      constructor
      · rintro rfl
        exact h.separate other base f hother hnew hf hframe
      · rintro rfl
        exact Option.some.inj (hf.symm.trans hframe)
    rw [Option.map_some, Option.map_some, PhysicalMemory.frame_insert]
    simp only [hiff]
    split <;> rfl

/-! ### Requests to both spaces -/

theorem addPage (h : Twin start k s) (hdistinct : Distinct k.frames.usable) (hbase : pageBase base = base)
    (hcanonical : Canonical base) (hnew : start.frame? base = none) :
    (∃ k' said s', KernelSpace.addPage base k = ⟨.ok (), k', said⟩ ∧ s.addPage base = .ok s' ∧
        Twin start k' s') ∨
      k.Fails (KernelSpace.addPage base k) := by
  rw [SparseSpace.addPage]
  rcases k.addPage_cases hbase with
    ⟨hnone, -⟩ | ⟨page, hpage, ⟨hthere, said, hadd⟩ | ⟨frame, k', hbacks, hadd⟩ | hfails⟩
  · rw [hcanonical] at hnone
    cases hnone
  · cases hcanonical.symm.trans hpage
    exact .inl ⟨k, said, s, hadd, if_pos ((h.contains_iff hnew).2 hthere), h⟩
  · cases hcanonical.symm.trans hpage
    have hmissing : ¬ s.pages.contains base = true := by
      rw [h.contains_iff hnew, hbacks.missing]
      exact Bool.false_ne_true
    have hroom : ¬ s.isFull = true := mt SparseSpace.isFull_iff.1 (SparseSpace.not_exhausted h.unlimited)
    rw [if_neg hmissing, if_neg hroom]
    exact .inl ⟨k', [], _, hadd, rfl, h.backs hbacks hdistinct⟩
  · exact .inr hfails

/-- The pages of a run are added to both spaces, unless the kernel runs out of frames. -/
theorem addPages {run : PageRun} (h : Twin start k s) (hdistinct : Distinct k.frames.usable)
    (hphysical : k.frames.Physical) (count i : Nat)
    (hbases : ∀ j, i ≤ j → j < i + count → pageBase (run.base j) = run.base j ∧ Canonical (run.base j) ∧
      start.frame? (run.base j) = none) :
    (∃ k' said s', KernelSpace.addPages run count i k = ⟨.ok (), k', said⟩ ∧
      s.addPages run count i = (.ok (), s') ∧ Twin start k' s') ∨
        k.frames.RanOut (KernelSpace.addPages run count i k).state.frames := by
  induction count generalizing k s i with
  | zero => exact .inl ⟨k, [], s, rfl, rfl, h⟩
  | succ count ih =>
    obtain ⟨hbase, hcanonical, hnew⟩ := hbases i (Nat.le_refl i) (by omega)
    have hrest : ∀ j, i + 1 ≤ j → j < i + 1 + count → _ := fun j hij hj => hbases j (by omega) (by omega)
    have hgrows := k.grows_addPage hbase
    rcases h.addPage hdistinct hbase hcanonical hnew with ⟨k₁, said, s₁, hadd, hadd', htwin⟩ | hfails
    · rw [hadd] at hgrows
      have husable : k₁.frames.usable = k.frames.usable := hgrows.frames.usable
      rw [KernelSpace.addPages, Action.bind_of_ok hadd, SparseSpace.addPages, hadd']
      rcases ih htwin (by rwa [husable]) (by rwa [FrameAllocator.Physical, husable]) (i + 1) hrest with
        ⟨k₂, said', s₂, hall, hall', htwin⟩ | hout
      · rw [hall]
        exact .inl ⟨k₂, _, s₂, rfl, hall', htwin⟩
      · exact .inr (.of_drawn hgrows.frames hout)
    · -- nothing that follows gives frames back
      have hout := hfails.ranOut_of_physical hphysical
      exact .inr (Action.bind_keeps (P := fun k' : KernelSpace => k.frames.RanOut k'.frames) hout fun _ _ =>
        hout.drawn (KernelSpace.grows_addPages _ count (i + 1) fun j hij hj => (hrest j hij hj).1).frames)

/-- The first page of an access that one of the spaces has not is the first that the other has not. -/
theorem missing?_eq {addr : UInt64} {len : Nat} (h : Twin start k s)
    (hfit : addr.toNat + len < 0x10000000000000000)
    (hnew : ∀ a : UInt64, addr.toNat ≤ a.toNat → a.toNat < addr.toNat + len →
      Canonical a ∧ start.frame? (pageBase a) = none) :
    missing? k.memory (touched addr len) = missing? s (touched addr len) ∧
      (touched addr len).find? (fun base => !k.isMapped base) = missing? s (touched addr len) := by
  have hbase : ∀ j, 0 ≤ j → j < 0 + (touched addr len).count.toNat →
      PageStore.page? k.memory ((touched addr len).base j) = PageStore.page? s ((touched addr len).base j) ∧
        k.isMapped ((touched addr len).base j) = (PageStore.page? s ((touched addr len).base j)).isSome := by
    intro j _ hj
    obtain ⟨hle, hlt, hpage⟩ := max_base_mem (Nat.le_of_lt hfit) (j := j) (by omega)
    obtain ⟨hcanonical, hmissing⟩ := hnew _ hle hlt
    rw [← hpage]
    have hsame := h.page?_eq _ hmissing
    refine ⟨hsame, ?_⟩
    rw [KernelSpace.isMapped_pageBase hcanonical, hsame]
  refine ⟨findFrom_congr fun j hle hj => ?_, findFrom_congr fun j hle hj => ?_⟩
  · rw [(hbase j hle hj).1]
  · rw [(hbase j hle hj).2, Option.not_isSome]

/-- Both spaces end the mapping of a range alike, unless the kernel runs out of frames. -/
theorem map_agrees (h : Twin start k s) (hdistinct : Distinct k.frames.usable) (hphysical : k.frames.Physical)
    (hnew : ∀ a, range.Contains a → Canonical a ∧ start.frame? (pageBase a) = none) :
    (KernelSpace.map range k).Agrees (Twin start) ((AddressSpace.map range : Action SparseSpace _ Unit) s) ∨
      k.frames.RanOut (KernelSpace.map range k).state.frames := by
  by_cases hrange : range.start ≤ range.stop
  · rw [KernelSpace.map_eq hrange]
    have hrun := pages_eq hrange
    set run := touched range.start (range.stop.toNat - range.start.toNat)
    have hsparse : s.map range = s.addPages run run.count.toNat 0 := by rw [SparseSpace.map, hrun]
    have hpages : ∀ j, 0 ≤ j → j < 0 + run.count.toNat → pageBase (run.base j) = run.base j ∧
        Canonical (run.base j) ∧ start.frame? (run.base j) = none := by
      intro j _ hj
      obtain ⟨a, ha, hpage⟩ := exists_contains_of_base hrange hrun (k := j) (by omega)
      obtain ⟨hcanonical, hmissing⟩ := hnew a ha
      rw [← hpage]
      exact ⟨pageBase_pageBase a, canonical_pageBase.2 hcanonical, hmissing⟩
    rcases h.addPages hdistinct hphysical run.count.toNat 0 hpages with
      ⟨k', said, s', hadd, hadd', htwin⟩ | hout
    · rw [hadd, SparseSpace.mapping_of_ok (hsparse.trans hadd')]
      exact .inl ⟨rfl, htwin⟩
    · exact .inr hout
  · have hreversed := UInt64.not_le.1 hrange
    rw [KernelSpace.map_of_reversed hreversed,
      SparseSpace.mapping_of_error (SparseSpace.map_of_reversed hreversed)]
    exact .inl ⟨rfl, h⟩

/-- Bytes that go to pages that both spaces have are copied into both. -/
theorem copyIn (h : Twin start k s) {addr : UInt64} {source : Array UInt8}
    (hnew : ∀ i < source.size, start.frame? (pageBase (addr + UInt64.ofNat i)) = none) :
    Twin start { k with memory := Memory.copyIn k.memory addr source } (Memory.copyIn s addr source) := by
  refine copyInFrom_related (R := fun memory s => Twin start { k with memory } s)
    (P := fun base => start.frame? base = none) (fun _ _ base h => h.page?_eq base) ?_ hnew
    k.memory 0 s h
  intro memory s base old page h hbase hthere
  obtain ⟨frame, hframe, -⟩ := Option.map_eq_some_iff.1 hthere
  exact h.setPage hbase hframe page

/-- Both spaces end a write alike. -/
theorem write_agrees (h : Twin start k s) {addr : UInt64} {source : Array UInt8}
    (hnew : ∀ a : UInt64, addr.toNat ≤ a.toNat → a.toNat < addr.toNat + source.size →
      Canonical a ∧ start.frame? (pageBase a) = none) :
    (KernelSpace.write addr source k).Agrees (Twin start)
      ((AddressSpace.write addr source : Action SparseSpace _ Unit) s) := by
  by_cases hfit : addr.toNat + source.size < 0x10000000000000000
  · obtain ⟨hmissing, hfind⟩ := h.missing?_eq hfit hnew
    cases hnone : missing? s (touched addr source.size) with
    | none =>
      rw [hnone] at hmissing hfind
      have hcheck : k.checkMapped addr (touched addr source.size) = .ok () := by
        rw [KernelSpace.checkMapped, hfind]
      rw [KernelSpace.write_of_ok hfit hcheck hmissing,
        SparseSpace.writing_of_ok (SparseSpace.write_of_present hfit hnone)]
      refine ⟨rfl, h.copyIn fun i hi => (hnew _ ?_ ?_).2⟩
      · rw [toNat_place (by omega)]
        omega
      · rw [toNat_place (by omega)]
        omega
    | some base =>
      rw [hnone] at hfind
      have hcheck : k.checkMapped addr (touched addr source.size) = .error (.unmapped (max base addr)) := by
        obtain ⟨j, hj, rfl⟩ := exists_base_of_find? hnone
        obtain ⟨hle, hlt, hpage⟩ := max_base_mem (Nat.le_of_lt hfit) hj
        have hcanonical : Canonical ((touched addr source.size).base j) :=
          hpage ▸ canonical_pageBase.2 (hnew _ hle hlt).1
        rw [KernelSpace.checkMapped, hfind]
        dsimp only
        rw [KernelSpace.refusal, hcanonical]
      rw [KernelSpace.write_of_error hfit hcheck,
        SparseSpace.writing_of_error (SparseSpace.write_of_missing hfit hnone)]
      exact ⟨rfl, h⟩
  · have hwraps := Nat.not_lt.1 hfit
    rw [KernelSpace.write_of_wraps hwraps, SparseSpace.writing_of_error (SparseSpace.write_of_wraps hwraps)]
    exact ⟨rfl, h⟩

/-- Both spaces answer a request alike, unless the kernel runs out of frames. -/
theorem serve_agrees (h : Twin start k s) (hdistinct : Distinct k.frames.usable)
    (hphysical : k.frames.Physical) {request : Request}
    (hnew : ∀ a, request.Touches a → Canonical a ∧ start.frame? (pageBase a) = none) :
    ((serve k request).1 = (serve s request).1 ∧ Twin start (serve k request).2 (serve s request).2) ∨
      k.frames.RanOut (serve k request).2.frames := by
  cases request with
  | map range =>
    rcases h.map_agrees hdistinct hphysical hnew with ⟨houtcome, htwin⟩ | hout
    · exact .inl ⟨houtcome, htwin⟩
    · exact .inr hout
  | write addr source =>
    obtain ⟨houtcome, htwin⟩ := h.write_agrees fun a hle hlt => hnew a ⟨hle, hlt⟩
    exact .inl ⟨houtcome, htwin⟩

end Twin

/-! ### Requests in a row -/

variable {k : KernelSpace} {requests : List Request}

theorem grows_serve (k : KernelSpace) (request : Request) : k.Grows (serve k request).2 := by
  cases request with
  | map range => exact k.grows_map range
  | write addr source => exact k.grows_write addr source

/-- A write takes no frames. -/
theorem frames_serve_write (k : KernelSpace) (addr : UInt64) (source : Array UInt8) :
    (serve k (.write addr source)).2.frames = k.frames :=
  congrArg MemoryManager.frames (k.manager_write addr source)

theorem grows_serveAll (k : KernelSpace) (requests : List Request) :
    k.Grows (serveAll serve k requests).2 := by
  induction requests generalizing k with
  | nil => exact .refl k
  | cons request rest ih => exact (grows_serve k request).trans (ih _)

/-- Unless the kernel runs out of frames, both spaces answer all requests alike. -/
theorem Twin.serveAll_agrees {start : KernelSpace} {s : SparseSpace} (h : Twin start k s)
    (hdistinct : Distinct k.frames.usable) (hphysical : k.frames.Physical)
    (hnew : ∀ request ∈ requests, ∀ a, request.Touches a → Canonical a ∧ start.frame? (pageBase a) = none)
    (hroom : ¬ k.frames.RanOut (serveAll serve k requests).2.frames) :
    (serveAll serve k requests).1 = (serveAll serve s requests).1 ∧
      Twin start (serveAll serve k requests).2 (serveAll serve s requests).2 := by
  induction requests generalizing k s with
  | nil => exact ⟨rfl, h⟩
  | cons request rest ih =>
    have hgrows := (grows_serve k request).frames
    rcases h.serve_agrees hdistinct hphysical (hnew request (List.mem_cons_self ..)) with
      ⟨hanswer, htwin⟩ | hout
    · obtain ⟨hanswers, htwin⟩ := ih htwin (by rwa [hgrows.usable])
        (by rwa [FrameAllocator.Physical, hgrows.usable])
        (fun request hrequest => hnew request (List.mem_cons_of_mem _ hrequest))
        (fun hout => hroom (hout.of_drawn hgrows))
      exact ⟨congrArg₂ List.cons hanswer hanswers, htwin⟩
    · exact absurd (hout.drawn (grows_serveAll _ rest).frames) hroom

/-- Bytes of a sparse space that no request writes to are zero where they appear. -/
theorem frame_serveAll (s : SparseSpace) (requests : List Request) :
    Flat.Frame (fun a => ∃ request ∈ requests, request.Writes a) (byte? s)
      (byte? (serveAll serve s requests).2) := by
  induction requests generalizing s with
  | nil => exact .refl _ _
  | cons request rest ih =>
    have hfirst : Flat.Frame request.Writes (byte? s) (byte? (serve s request).2) := by
      cases request with
      | map range => exact SparseSpace.frame_mapping _ s range
      | write addr source => exact s.frame_writing addr source
    refine (hfirst.mono fun a ha => ?_).trans ((ih _).mono ?_)
    · exact ⟨request, List.mem_cons_self .., ha⟩
    · rintro a ⟨other, hother, ha⟩
      exact ⟨other, List.mem_cons_of_mem _ hother, ha⟩

/-- What the kernel's space has in common with the sparse one after the same requests, on the pages that
it did not have at the start. -/
structure Alike (start : KernelSpace) (requests : List Request) (k : KernelSpace)
    (s : SparseSpace) : Prop where
  byte?_eq : ∀ a, start.frame? (pageBase a) = none → byte? k.memory a = byte? s a
  /-- Pages are zero at first, whatever their frames held before: a byte that is never written stays zero. -/
  zero : ∀ a b, start.frame? (pageBase a) = none → (∀ request ∈ requests, ¬ request.Writes a) →
    byte? k.memory a = some b → b = 0
  /-- The frames of these pages were not handed out before. -/
  fresh : ∀ page frame, start.frame? page = none → k.frame? page = some frame → Handed start k frame
  /-- No two of these pages share a frame. -/
  separate : ∀ page page' frame, start.frame? page = none → start.frame? page' = none →
    k.frame? page = some frame → k.frame? page' = some frame → page = page'
  /-- A write that fails changes nothing. -/
  unchanged : ∀ addr source e, (KernelSpace.write addr source k).outcome = .error e →
    (KernelSpace.write addr source k).state = k

theorem Twin.alike {start : KernelSpace} {s : SparseSpace} (h : Twin start k s)
    (hframe : Flat.Frame (fun a => ∃ request ∈ requests, request.Writes a) (fun _ => none) (byte? s)) :
    Alike start requests k s := by
  have hbytes : ∀ a, start.frame? (pageBase a) = none → byte? k.memory a = byte? s a := by
    intro a hnew
    rw [byte?, h.page?_eq _ hnew, byte?]
  refine ⟨hbytes, fun a b hnew hwrites hbyte => ?_, h.handed, h.separate, fun addr source e herror => ?_⟩
  · rw [hbytes a hnew] at hbyte
    have hnot : ¬ ∃ request ∈ requests, request.Writes a := by
      rintro ⟨request, hrequest, ha⟩
      exact hwrites request hrequest ha
    have hzero := hframe.eq_some hnot (by rw [hbyte]; rfl)
    rw [hbyte] at hzero
    exact Option.some.inj hzero
  · rcases k.write_cases addr source with ⟨e, hwrite⟩ | ⟨place, hwrite⟩ | hwrite
    · rw [hwrite]
    · rw [hwrite] at herror
      cases herror
    · rw [hwrite] at herror
      cases herror

/-- The kernel's address space answers all requests as a fresh sparse one does, and has the same bytes in
the end. The requests are about pages that it did not have at the start, and frames do not run out. -/
theorem serveAll_alike {map : List BootRegion} (htidy : Tidy map) (haligned : Aligned map)
    {start : KernelSpace} (hframes : start.frames.usable = (FrameAllocator.ofBootMap map).usable)
    (hnew : ∀ request ∈ requests, ∀ a, request.Touches a → Canonical a ∧ start.frame? (pageBase a) = none)
    (hroom : ¬ start.frames.RanOut (serveAll serve start requests).2.frames) :
    (serveAll serve start requests).1 = (serveAll serve ({} : SparseSpace) requests).1 ∧
      Alike start requests (serveAll serve start requests).2
        (serveAll serve ({} : SparseSpace) requests).2 := by
  have hdistinct : Distinct start.frames.usable := hframes ▸ htidy.distinct haligned
  have hphysical : start.frames.Physical := by
    rw [FrameAllocator.Physical, hframes]
    exact htidy.physical_ofBootMap
  obtain ⟨hanswers, htwin⟩ := (Twin.init start).serveAll_agrees hdistinct hphysical hnew hroom
  refine ⟨hanswers, htwin.alike ?_⟩
  have hempty : byte? ({} : SparseSpace) = fun _ => none := by
    funext a
    rw [byte?, show PageStore.page? ({} : SparseSpace) (pageBase a) = none from Std.TreeMap.getElem?_emptyc]
    rfl
  rw [← hempty]
  exact frame_serveAll {} requests

/-- Two pages, a write that goes on behind them, and one across their boundary. -/
theorem serveAll_alike_crossing :
    let map : List BootRegion := [⟨0x1000, 0x20000, .usable⟩]
    let start : KernelSpace := { memory := { manager := { frames := .ofBootMap map } } }
    let requests : List Request :=
      [.map ⟨0x400ffe, 0x401002⟩, .write 0x401ffe #[1, 2, 3, 4], .write 0x400ffe #[1, 2, 3, 4]]
    Tidy map ∧ Aligned map ∧
      (serveAll serve start requests).1 = [.ok (), .error (.unmapped 0x402000), .ok ()] ∧
        Alike start requests (serveAll serve start requests).2
          (serveAll serve ({} : SparseSpace) requests).2 := by
  intro map start requests
  have htidy : Tidy map := { disjoint := List.pairwise_singleton .., physical := by decide }
  have haligned : Aligned map := by
    unfold Aligned
    decide
  have hnew : ∀ request ∈ requests, ∀ a, request.Touches a →
      Canonical a ∧ start.frame? (pageBase a) = none := by
    have htouches : ∀ request ∈ requests, ∀ a, request.Touches a → a.toNat < 0x402002 := by
      intro request hrequest a ha
      simp only [requests, List.mem_cons, List.not_mem_nil, or_false] at hrequest
      rcases hrequest with rfl | rfl | rfl
      · exact Nat.lt_of_lt_of_le ha.2 (by decide)
      · exact ha.2
      · exact Nat.lt_of_lt_of_le ha.2 (by decide)
    intro request hrequest a ha
    have hlt := htouches request hrequest a ha
    exact ⟨canonical_iff.2 (.inl (by omega)), rfl⟩
  have hroom : ¬ start.frames.RanOut (serveAll serve start requests).2.frames := by
    simp only [requests, serveAll, frames_serve_write]
    decide +kernel
  obtain ⟨hanswers, halike⟩ := serveAll_alike htidy haligned rfl hnew hroom
  refine ⟨htidy, haligned, hanswers.trans ?_, halike⟩
  decide +kernel

end EnvKernel.Memory
