import EnvKernel.Memory.Paging
import EnvKernel.Proofs.Memory.Frame
import EnvKernel.Proofs.Memory.Store

/-!
Virtual addresses and the frames behind pages. `virtual?_cases` says which addresses the processor takes,
and as which. `map_cases` says what giving a page a fresh frame comes to: the page gets the next frame
and nothing changes for the other pages, or there are no frames left. Whatever fails, frames are only
ever taken.
-/

namespace EnvKernel.Memory

variable {a base page : UInt64}

/-! ### Addresses of the processor -/

/-- The processor takes the address as it is. -/
def Canonical (a : UInt64) : Prop := virtual? a = some a

instance (a : UInt64) : Decidable (Canonical a) := inferInstanceAs (Decidable (_ = _))

/-- Setting the sixteen high bits of an address of 48 bits adds them. -/
theorem toNat_or_high (h : a.toNat < 0x1000000000000) :
    (a ||| 0xffff000000000000).toNat = a.toNat + 0xffff000000000000 := by
  have hor := Nat.two_pow_add_eq_or_of_lt (i := 48) h 0xffff
  rw [UInt64.toNat_or, Nat.or_comm, Nat.add_comm]
  exact hor.symm

/-- The addresses of both halves are taken as they are, and those that would be in the upper one but for
their high bits as if they were there. -/
theorem virtual?_cases (a : UInt64) :
    ((a.toNat < 0x800000000000 ∨ 0xffff800000000000 ≤ a.toNat) ∧ virtual? a = some a) ∨
      ((0x800000000000 ≤ a.toNat ∧ a.toNat < 0x1000000000000) ∧
        ∃ v, virtual? a = some v ∧ v.toNat = a.toNat + 0xffff000000000000) ∨
      ((0x1000000000000 ≤ a.toNat ∧ a.toNat < 0xffff800000000000) ∧ virtual? a = none) := by
  have ha := a.toNat_lt
  have htop : (a >>> 47).toNat = a.toNat / 0x800000000000 := by
    rw [UInt64.toNat_shiftRight, Nat.shiftRight_eq_div_pow]
    rfl
  have hiff : ∀ n : UInt64, a >>> 47 = n ↔ a.toNat / 0x800000000000 = n.toNat :=
    fun n => by rw [← UInt64.toNat_inj, htop]
  have hhalves : (a >>> 47 = 0 ∨ a >>> 47 = 0x1ffff) ↔
      (a.toNat < 0x800000000000 ∨ 0xffff800000000000 ≤ a.toNat) := by
    rw [hiff, hiff, show (0 : UInt64).toNat = 0 from rfl, show (0x1ffff : UInt64).toNat = 0x1ffff from rfl]
    omega
  have hextended : a >>> 47 = 1 ↔ 0x800000000000 ≤ a.toNat ∧ a.toNat < 0x1000000000000 := by
    rw [hiff, show (1 : UInt64).toNat = 1 from rfl]
    omega
  unfold virtual?
  dsimp only
  by_cases h : a.toNat < 0x800000000000 ∨ 0xffff800000000000 ≤ a.toNat
  · exact .inl ⟨h, if_pos (hhalves.2 h)⟩
  · rw [if_neg (mt hhalves.1 h)]
    by_cases hlow : 0x800000000000 ≤ a.toNat ∧ a.toNat < 0x1000000000000
    · exact .inr (.inl ⟨hlow, _, if_pos (hextended.2 hlow), toNat_or_high hlow.2⟩)
    · exact .inr (.inr ⟨by omega, if_neg (mt hextended.1 hlow)⟩)

theorem canonical_iff : Canonical a ↔ a.toNat < 0x800000000000 ∨ 0xffff800000000000 ≤ a.toNat := by
  rw [Canonical]
  rcases virtual?_cases a with ⟨hrange, hv⟩ | ⟨hrange, v, hv, hvalue⟩ | ⟨hrange, hv⟩
  · simp [hv, hrange]
  · have hne : v ≠ a := by
      rintro rfl
      omega
    rw [hv, Option.some.injEq]
    exact ⟨fun heq => absurd heq hne, fun h => by omega⟩
  · rw [hv]
    exact ⟨nofun, fun h => by omega⟩

/-- What the processor takes an address as is an address that it takes as it is. -/
theorem canonical_of_virtual? (h : virtual? a = some page) : Canonical page := by
  rw [canonical_iff]
  rcases virtual?_cases a with ⟨hrange, hv⟩ | ⟨hrange, v, hv, hvalue⟩ | ⟨-, hv⟩ <;> rw [hv] at h <;> cases h
  · exact hrange
  · omega

theorem canonical_pageBase : Canonical (pageBase a) ↔ Canonical a := by
  rw [canonical_iff, canonical_iff, toNat_pageBase]
  omega

/-- The first address of a page is taken as the first address of a page. -/
theorem pageBase_of_virtual? (hbase : pageBase base = base) (h : virtual? base = some page) :
    pageBase page = page := by
  rw [← UInt64.toNat_inj, toNat_pageBase] at hbase ⊢
  rcases virtual?_cases base with ⟨-, hv⟩ | ⟨-, v, hv, hvalue⟩ | ⟨-, hv⟩ <;> rw [hv] at h <;> cases h
  · exact hbase
  · -- the high bits make up whole pages
    rw [hvalue, show 0xffff000000000000 = 0xffff000000000 * 4096 from rfl,
      Nat.add_mul_div_right _ _ (by decide), Nat.add_mul, hbase]

/-! ### Frames that are taken -/

namespace FrameAllocator

/-- The allocator `a'` is `a` after some calls. -/
structure Drawn (a a' : FrameAllocator) : Prop where
  usable : a'.usable = a.usable
  next : a.next ≤ a'.next

theorem Drawn.refl (a : FrameAllocator) : a.Drawn a := ⟨rfl, Nat.le_refl _⟩

theorem Drawn.trans {a b c : FrameAllocator} (h : a.Drawn b) (h' : b.Drawn c) : a.Drawn c :=
  ⟨h'.usable.trans h.usable, Nat.le_trans h.next h'.next⟩

/-- One of the calls between two states of an allocator found no frame. -/
def RanOut (a a' : FrameAllocator) : Prop := a.next < a'.next ∧ (addresses a'.usable).length < a'.next

instance (a a' : FrameAllocator) : Decidable (a.RanOut a') := inferInstanceAs (Decidable (_ ∧ _))

theorem RanOut.of_drawn {a b c : FrameAllocator} (h : a.Drawn b) (hout : b.RanOut c) : a.RanOut c :=
  ⟨Nat.lt_of_le_of_lt h.next hout.1, hout.2⟩

theorem RanOut.drawn {a b c : FrameAllocator} (hout : a.RanOut b) (h : b.Drawn c) : a.RanOut c :=
  ⟨Nat.lt_of_lt_of_le hout.1 h.next, h.usable ▸ Nat.lt_of_lt_of_le hout.2 h.next⟩

/-- The allocator after one more call. -/
def after (a : FrameAllocator) : FrameAllocator := { a with next := a.next + 1 }

theorem drawn_after (a : FrameAllocator) : a.Drawn a.after := ⟨rfl, Nat.le_succ _⟩

end FrameAllocator

namespace MemoryManager

variable {m m' m'' : MemoryManager} {α β : Type}

/-- The same pages have frames, and frames were taken. -/
structure Drawn (m m' : MemoryManager) : Prop where
  pages : m'.tables.pages = m.tables.pages
  frames : m.frames.Drawn m'.frames

theorem Drawn.refl (m : MemoryManager) : m.Drawn m := ⟨rfl, .refl _⟩

theorem Drawn.trans (h : m.Drawn m') (h' : m'.Drawn m'') : m.Drawn m'' :=
  ⟨h'.pages.trans h.pages, h.frames.trans h'.frames⟩

/-- A computation that did not succeed for want of a frame. It leaves the pages alone. -/
inductive Fails (m : MemoryManager) : Effect MemoryManager MapError α → Prop where
  | ranOut {m' : MemoryManager} (drawn : m.Drawn m') (ranOut : m.frames.RanOut m'.frames) :
    Fails m ⟨.error .frameAllocationFailed, m', []⟩
  /-- The allocator came upon an address that is not physical. -/
  | stopped {m' : MemoryManager} (drawn : m.Drawn m') (notPhysical : ¬ m.frames.Physical) :
    Fails m ⟨.stop (.panic .physicalAddress), m', []⟩

theorem Fails.of_drawn {e : Effect MemoryManager MapError α} (h : m.Drawn m') (hfails : Fails m' e) :
    Fails m e := by
  cases hfails with
  | ranOut drawn ranOut => exact .ranOut (h.trans drawn) (.of_drawn h.frames ranOut)
  | stopped drawn notPhysical =>
    refine .stopped (h.trans drawn) fun hphysical => notPhysical ?_
    rwa [FrameAllocator.Physical, h.frames.usable]

theorem Fails.bind {x : Action MemoryManager MapError α} (f : α → Action MemoryManager MapError β)
    (h : Fails m (x m)) : Fails m ((x >>= f) m) := by
  generalize he : x m = e at h
  cases h with
  | ranOut drawn ranOut =>
    rw [Action.bind_of_error he]
    exact .ranOut drawn ranOut
  | stopped drawn notPhysical =>
    rw [Action.bind_of_stop he]
    exact .stopped drawn notPhysical

/-- The manager after one more call for a frame. -/
def asked (m : MemoryManager) : MemoryManager := { m with frames := m.frames.after }

theorem drawn_asked (m : MemoryManager) : m.Drawn m.asked := ⟨rfl, m.frames.drawn_after⟩

/-- The next frame is taken, if there is one. -/
theorem takeFrame_cases (m : MemoryManager) :
    (∃ a, (addresses m.frames.usable)[m.frames.next]? = some a ∧
      takeFrame m = ⟨.ok (pageBase a), m.asked, []⟩) ∨ Fails m (takeFrame m) := by
  rw [takeFrame, FrameAllocator.allocate, frame?_eq]
  by_cases hphysical : PhysicalUpTo m.frames.usable m.frames.next
  · rw [if_pos hphysical]
    cases haddr : (addresses m.frames.usable)[m.frames.next]? with
    | some a => exact .inl ⟨a, rfl, rfl⟩
    | none =>
      refine .inr (.ranOut m.drawn_asked ⟨Nat.lt_succ_self _, ?_⟩)
      exact Nat.lt_succ_of_le (List.getElem?_eq_none_iff.1 haddr)
  · rw [if_neg hphysical]
    exact .inr (.stopped (.refl m) fun h => hphysical (h.upTo _))

theorem demand_cases (table : Table) (m : MemoryManager) :
    (∃ m', m.Drawn m' ∧ demand table m = ⟨.ok (), m', []⟩) ∨ Fails m (demand table m) := by
  rw [demand, Action.bind_state_apply]
  by_cases hthere : m.tables.tables.contains table = true
  · rw [if_pos hthere]
    exact .inl ⟨m, .refl m, rfl⟩
  · rw [if_neg hthere]
    rcases m.takeFrame_cases with ⟨a, -, htake⟩ | hfails
    · rw [Action.bind_of_ok htake]
      exact .inl ⟨{ m.asked with tables := { m.tables with tables := table :: m.tables.tables } },
        ⟨rfl, m.frames.drawn_after⟩, rfl⟩
    · exact .inr (hfails.bind _)

theorem demandAll_cases (tables : List Table) (m : MemoryManager) :
    (∃ m', m.Drawn m' ∧ demandAll tables m = ⟨.ok (), m', []⟩) ∨ Fails m (demandAll tables m) := by
  induction tables generalizing m with
  | nil => exact .inl ⟨m, .refl m, rfl⟩
  | cons table rest ih =>
    rw [demandAll]
    rcases m.demand_cases table with ⟨m₁, hdrawn, hdemand⟩ | hfails
    · rw [Action.bind_of_ok hdemand]
      rcases ih m₁ with ⟨m₂, hrest, hdemand⟩ | hfails
      · rw [hdemand]
        exact .inl ⟨m₂, hdrawn.trans hrest, rfl⟩
      · exact .inr (hfails.of_drawn hdrawn)
    · exact .inr (hfails.bind _)

/-- In `m'` the page has the frame that came next in `m`, and nothing changed for the other pages. -/
structure Backs (m : MemoryManager) (page frame : UInt64) (m' : MemoryManager) : Prop where
  next : ∃ a, (addresses m.frames.usable)[m.frames.next]? = some a ∧ pageBase a = frame
  taken : m.frames.after.Drawn m'.frames
  pages : m'.tables.pages = m.tables.pages.insert page frame

theorem mapTo_cases (m : MemoryManager) (frame : UInt64) (hnone : m.tables.frame? page = none) :
    (∃ m', m.frames.Drawn m'.frames ∧ m'.tables.pages = m.tables.pages.insert page frame ∧
      mapTo page frame m = ⟨.ok (), m', []⟩) ∨ Fails m (mapTo page frame m) := by
  rw [mapTo]
  rcases m.demandAll_cases (tablesFor page) with ⟨m', hdrawn, hdemand⟩ | hfails
  · have hfree : ¬ (m'.tables.frame? page).isSome = true := by
      rw [PageTables.frame?, hdrawn.pages, Option.not_isSome_iff_eq_none]
      exact hnone
    rw [Action.bind_of_ok hdemand, Action.bind_state_apply, if_neg hfree]
    exact .inl ⟨{ m' with tables := { m'.tables with pages := m'.tables.pages.insert page frame } },
      hdrawn.frames, congrArg (·.insert page frame) hdrawn.pages, rfl⟩
  · exact .inr (hfails.bind _)

/-- A page that has no frame gets a fresh one, if there are enough. -/
theorem map_cases (m : MemoryManager) (hnone : m.tables.frame? page = none) :
    (∃ frame m', Backs m page frame m' ∧ map page m = ⟨.ok frame, m', []⟩) ∨ Fails m (map page m) := by
  rw [map]
  rcases m.takeFrame_cases with ⟨a, haddr, htake⟩ | hfails
  · rw [Action.bind_of_ok htake]
    rcases m.asked.mapTo_cases (pageBase a) hnone with ⟨m', htaken, hpages, hmap⟩ | hfails
    · rw [Action.bind_of_ok hmap]
      exact .inl ⟨pageBase a, m', ⟨⟨a, haddr, rfl⟩, htaken, hpages⟩, rfl⟩
    · exact .inr ((hfails.bind _).of_drawn m.drawn_asked)
  · exact .inr (hfails.bind _)

end MemoryManager

end EnvKernel.Memory
