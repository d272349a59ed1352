import EnvKernel.Program.Load
import EnvKernel.Proofs.Memory.Sparse
import EnvKernel.Proofs.Program.Placement

/-!
Loading into a sparse space. `load_validates` says that an image is examined before anything happens:
one that is refused changes nothing, and with one that is not, the only thing that can go wrong is that
there is no room for a page. `load_exact` says what memory holds afterwards, byte by byte: the byte of the
last item that has one for the address, and else what was there, or zero on a new page.
-/

namespace EnvKernel.Program

open Elf Env Memory

variable {binary : Bytes} {image : Image} {items items' : List Item} {item : Item} {p : Placement}
  {ps : List Placement} {m m' m'' : Flat}

/-! ### Items in memory -/

/-- The last item that has a byte for address `a`. -/
def lastSupplier? (items : List Item) (a : UInt64) : Option Item :=
  (items.filter fun item => item.Supplies a).getLast?

theorem lastSupplier?_append (a : UInt64) :
    lastSupplier? (items ++ items') a = (lastSupplier? items' a).or (lastSupplier? items a) := by
  simp [lastSupplier?, List.filter_append, List.getLast?_append]

theorem lastSupplier?_eq_none_iff {a : UInt64} :
    lastSupplier? items a = none ↔ ∀ item ∈ items, ¬ item.Supplies a := by
  simp [lastSupplier?]

/-- Memory `m'` is `m` with the items loaded in order. -/
structure Loaded (binary : Bytes) (items : List Item) (m m' : Flat) : Prop where
  /-- The pages that an item meets are there, and those that were there before. -/
  mapped_iff : ∀ a, (m' a).isSome = true ↔ (m a).isSome = true ∨ ∃ item ∈ items, item.Meets a
  /-- The last item that has a byte for an address decides. -/
  supplied : ∀ a item, lastSupplier? items a = some item →
    ∃ b, item.byte? binary a = some b ∧ m' a = some b
  /-- Where no item has a byte, the old one stays, and a new page is zero. -/
  kept : ∀ a, (∀ item ∈ items, ¬ item.Supplies a) → (m' a).isSome = true → m' a = some ((m a).getD 0)

theorem loaded_nil (binary : Bytes) (m : Flat) : Loaded binary [] m m where
  mapped_iff a := by simp
  supplied a item h := by simp [lastSupplier?] at h
  kept a _ ha := by
    obtain ⟨b, hb⟩ := Option.isSome_iff_exists.1 ha
    simp [hb]

/-- Items loaded after others. -/
theorem Loaded.append (h : Loaded binary items m m') (h' : Loaded binary items' m' m'') :
    Loaded binary (items ++ items') m m'' where
  mapped_iff a := by
    rw [h'.mapped_iff, h.mapped_iff, or_assoc]
    simp [or_and_right, exists_or]
  supplied a item hlast := by
    rw [lastSupplier?_append] at hlast
    rcases hlater : lastSupplier? items' a with - | later
    · rw [hlater, Option.none_or] at hlast
      obtain ⟨b, hb, hm⟩ := h.supplied a item hlast
      have hthere : (m'' a).isSome = true := (h'.mapped_iff a).2 (.inl (by simp [hm]))
      have hkept := h'.kept a (lastSupplier?_eq_none_iff.1 hlater) hthere
      exact ⟨b, hb, by rw [hkept, hm, Option.getD_some]⟩
    · rw [hlater, Option.some_or] at hlast
      cases hlast
      exact h'.supplied a item hlater
  kept a hnone hthere := by
    have hfirst : ∀ item ∈ items, ¬ item.Supplies a := fun item hi =>
      hnone item (List.mem_append_left _ hi)
    have hrest : ∀ item ∈ items', ¬ item.Supplies a := fun item hi =>
      hnone item (List.mem_append_right _ hi)
    rw [h'.kept a hrest hthere]
    cases hm : m' a with
    | some b => rw [← hm, h.kept a hfirst (by simp [hm]), Option.getD_some]
    | none =>
      have hm' : ¬ (m a).isSome = true := fun hm' => by
        have hthere' := (h.mapped_iff a).2 (.inl hm')
        rw [hm] at hthere'
        cases hthere'
      rw [Option.not_isSome_iff_eq_none.1 hm']

/-- Nothing is lost but where an item has a byte. -/
theorem Loaded.frame (h : Loaded binary items m m') :
    Flat.Frame (fun a => ∃ item ∈ items, item.Supplies a) m m' := by
  intro a ha
  push Not at ha
  cases hthere : m' a with
  | some b =>
    rw [← hthere, h.kept a ha (by rw [hthere]; rfl)]
    cases m a <;> simp
  | none =>
    have hgone := mt (h.mapped_iff a).2 (by simp [hthere])
    simp only [not_or, Bool.not_eq_true, Option.isSome_eq_false_iff, Option.isNone_iff_eq_none] at hgone
    exact .inl hgone.1.symm

/-- One item: its pages are mapped, and its bytes are stored. -/
theorem Placement.Realizes.loaded (h : p.Realizes binary item) (m : Flat) :
    Loaded binary [item] m ((m.map p.region).write p.region.start p.contents.data) := by
  have hsupplies : ∀ a : UInt64, (p.region.start.toNat ≤ a.toNat ∧
      a.toNat < p.region.start.toNat + p.contents.data.size) ↔ item.Supplies a := by
    intro a
    rw [h.start_eq, h.size_eq, Item.Supplies]
  have hin : ∀ a, item.Supplies a →
      (m.map p.region).write p.region.start p.contents.data a = item.byte? binary a := by
    intro a ha
    rw [Flat.write, if_pos ((hsupplies a).2 ha), h.start_eq, h.getElem?_contents ha]
  have hout : ∀ a, ¬ item.Supplies a →
      (m.map p.region).write p.region.start p.contents.data a = m.map p.region a := by
    intro a ha
    rw [Flat.write, if_neg (mt (hsupplies a).1 ha)]
  have hbyte : ∀ a, item.Supplies a → ∃ b, item.byte? binary a = some b := by
    intro a ha
    rw [← h.getElem?_contents ha]
    obtain ⟨hle, hlt⟩ := ha
    have hsize := h.size_eq
    exact ⟨_, Array.getElem?_eq_getElem (by omega)⟩
  constructor
  · intro a
    by_cases ha : item.Supplies a
    · obtain ⟨b, hb⟩ := hbyte a ha
      have hmeets : item.Meets a := ⟨a.toNat, ha.1, by
        have := h.length_le
        have := ha.2
        omega, rfl⟩
      simp [hin a ha, hb, hmeets]
    · rw [hout a ha, Flat.isSome_map, h.meets_iff]
      simp
  · intro a last hlast
    have hmem := List.mem_of_getLast? hlast
    simp only [List.mem_filter, List.mem_singleton, decide_eq_true_eq] at hmem
    obtain ⟨rfl, ha⟩ := hmem
    obtain ⟨b, hb⟩ := hbyte a ha
    exact ⟨b, hb, (hin a ha).trans hb⟩
  · intro a hnone hthere
    have ha := hnone item (List.mem_singleton_self item)
    rw [hout a ha] at hthere ⊢
    rw [Flat.map]
    split
    · rfl
    · rename_i hmeets
      rw [Flat.map_of_not_meets hmeets] at hthere
      obtain ⟨b, hb⟩ := Option.isSome_iff_exists.1 hthere
      simp [hb]

/-- Memory `m'` is `m` after an item was given up at `page`, for which there was no room: the pages of the
item that come before were added. -/
structure Item.GivenUp (item : Item) (page : UInt64) (m m' : Flat) : Prop where
  isBase : pageBase page = page
  meets : item.Meets page
  missing : m' page = none
  fills : Flat.Fills (fun a => item.Meets a ∧ a < page) m m'

theorem Placement.Realizes.givenUp (h : p.Realizes binary item) {s s' : SparseSpace} {page : UInt64}
    (hrefused : s.Refused p.region page s') : item.GivenUp page (byte? s) (byte? s') where
  isBase := hrefused.isBase
  meets := h.meets_iff.1 hrefused.meets
  missing := hrefused.missing
  fills := hrefused.fills.congr fun a => by rw [h.meets_iff]

/-! ### Carrying out placements -/

/-- A placement is carried out, or there is no room for one of its pages. -/
theorem place_cases (h : p.Realizes binary item) (s : SparseSpace) :
    (∃ s', place p s = ⟨.ok (), s', []⟩ ∧ s'.limit = s.limit ∧ Loaded binary [item] (byte? s) (byte? s')) ∨
    ∃ page s', place p s = ⟨.error (.mapFailed page), s', []⟩ ∧ s'.limit = s.limit ∧ s'.Exhausted ∧
      item.GivenUp page (byte? s) (byte? s') := by
  rcases s.map_cases h.start_le_stop with ⟨s₁, hmap, hlimit, hbytes⟩ | ⟨page, s', hmap, hlimit, hrefused⟩
  · have hloaded := h.loaded (byte? s)
    rw [← hbytes] at hloaded
    have hlength := h.length_le
    have hsize := h.size_eq
    have hstart := h.start_eq
    have hstop := h.stop_eq
    rw [place, Action.bind_of_ok (SparseSpace.mapping_of_ok hmap)]
    by_cases hempty : p.contents.isEmpty = true
    · have hzero : p.contents.data.size = 0 := by simpa [Bytes.isEmpty] using hempty
      rw [Flat.write_of_size_eq_zero hzero] at hloaded
      exact .inl ⟨s₁, by simp [hempty], hlimit, hloaded⟩
    · have hlast := p.region.stop.toNat_lt
      rcases s₁.write_cases p.region.start p.contents.data (by omega) with
        ⟨-, s₂, hwrite, hlimit', hbytes'⟩ | ⟨a, hwrite, hle, hlt, hnone, -⟩
      · rw [← hbytes'] at hloaded
        refine .inl ⟨s₂, ?_, hlimit'.trans hlimit, hloaded⟩
        simp [hempty, SparseSpace.writing_of_ok hwrite]
      · -- the region is there, so no byte of it is missing
        have hmeets : p.region.Meets a := Range.meets_of_mem (UInt64.le_iff_toNat_le.2 hle)
          (UInt64.lt_iff_toNat_lt.2 (by omega))
        rw [hbytes, Flat.map_of_meets hmeets] at hnone
        cases hnone
  · rw [place, Action.bind_of_error (SparseSpace.mapping_of_error hmap)]
    exact .inr ⟨page, s', rfl, hlimit, hrefused.exhausted, h.givenUp hrefused⟩

/-- Placements are carried out, or all of them before one for which there is no room. -/
theorem placeAll_cases (h : List.Forall₂ (Placement.Realizes binary) ps items) (s : SparseSpace) :
    (∃ s', placeAll ps s = ⟨.ok (), s', []⟩ ∧ s'.limit = s.limit ∧
      Loaded binary items (byte? s) (byte? s')) ∨
    ∃ before item after page s' middle, items = before ++ item :: after ∧
      placeAll ps s = ⟨.error (.mapFailed page), s', []⟩ ∧ s'.limit = s.limit ∧ s'.Exhausted ∧
      Loaded binary before (byte? s) middle ∧ item.GivenUp page middle (byte? s') := by
  induction h generalizing s with
  | nil => exact .inl ⟨s, rfl, rfl, loaded_nil binary (byte? s)⟩
  | @cons p item ps items hp _ ih =>
    rcases place_cases hp s with ⟨s₁, hplace, hlimit, hloaded⟩ |
      ⟨page, s', hplace, hlimit, hfull, hgiven⟩
    · have hrest : placeAll (p :: ps) s = placeAll ps s₁ := by
        rw [placeAll, Action.bind_of_ok hplace, List.nil_append]
      rw [hrest]
      rcases ih s₁ with ⟨s', hall, hlimit', hloaded'⟩ |
        ⟨before, failed, after, page, s', middle, rfl, hall, hlimit', hfull, hloaded', hgiven⟩
      · exact .inl ⟨s', hall, hlimit'.trans hlimit, hloaded.append hloaded'⟩
      · exact .inr ⟨item :: before, failed, after, page, s', middle, rfl, hall, hlimit'.trans hlimit,
          hfull, hloaded.append hloaded', hgiven⟩
    · rw [placeAll, Action.bind_of_error hplace]
      exact .inr ⟨[], item, items, page, s', byte? s, rfl, rfl, hlimit, hfull, loaded_nil binary _,
        hgiven⟩

/-! ### Loading -/

/-- The environment once `image`, which `binary` holds, is loaded. -/
def entered (env : Environment) (binary : Bytes) (image : Image) : Environment :=
  { env with tf := { env.tf with rip := image.entry }, binary := some binary }

theorem examine_eq_error_iff {e : ElfError} : examine binary = .error e ↔
    Image.parse binary = .error e ∨ ∃ image, Image.parse binary = .ok image ∧ plan image = .error e := by
  rw [examine, Reading.bind_eq_error_iff]
  refine or_congr_right (exists_congr fun image => and_congr_right fun _ => ?_)
  rw [Reading.bind_eq_error_iff]
  simp [pure, Except.pure]

theorem examine_eq_ok_iff : examine binary = .ok (image, ps) ↔
    Image.parse binary = .ok image ∧ plan image = .ok ps := by
  rw [examine, Reading.bind_eq_ok_iff]
  constructor
  · rintro ⟨_, hparse, h⟩
    obtain ⟨_, hplan, h⟩ := Reading.bind_eq_ok_iff.1 h
    cases h
    exact ⟨hparse, hplan⟩
  · rintro ⟨hparse, hplan⟩
    exact ⟨image, hparse, by rw [hplan]; rfl⟩

theorem load_of_refused {e : ElfError} (h : examine binary = .error e) (env : Environment)
    (s : SparseSpace) : load env binary s = ⟨.error (.malformed e), s, []⟩ := by
  rw [load, h]
  rfl

/-- An image that is not refused is loaded, or all of its items before one for which there is no room. -/
theorem load_cases (h : examine binary = .ok (image, ps)) (env : Environment) (s : SparseSpace) :
    (∃ s', load env binary s = ⟨.ok (entered env binary image), s', []⟩ ∧ s'.limit = s.limit ∧
      Loaded binary (Program.items image) (byte? s) (byte? s')) ∨
    ∃ before item after page s' middle, Program.items image = before ++ item :: after ∧
      load env binary s = ⟨.error (.memory (.mapFailed page)), s', []⟩ ∧ s'.limit = s.limit ∧
      s'.Exhausted ∧ Loaded binary before (byte? s) middle ∧ item.GivenUp page middle (byte? s') := by
  obtain ⟨hparse, hplan⟩ := examine_eq_ok_iff.1 h
  have hrealized := realized_plan hplan
  rw [bytes_of_parse hparse] at hrealized
  rw [load, h]
  rcases placeAll_cases hrealized s with ⟨s', hall, hlimit, hloaded⟩ |
    ⟨before, item, after, page, s', middle, hitems, hall, hlimit, hfull, hloaded, hgiven⟩
  · have hplaced := Action.mapError_of_ok LoadError.memory hall
    exact .inl ⟨s', by simp only [Action.bind_of_ok hplaced]; rfl, hlimit, hloaded⟩
  · have hfailed := Action.mapError_of_error LoadError.memory hall
    exact .inr ⟨before, item, after, page, s', middle, hitems, Action.bind_of_error hfailed, hlimit,
      hfull, hloaded, hgiven⟩

/-- Loading leaves alone what no item has a byte for. -/
theorem frame_load (binary : Bytes) (env : Environment) (s : SparseSpace) :
    Flat.Frame (fun a => ∃ image, Image.parse binary = .ok image ∧
      ∃ item ∈ Program.items image, item.Supplies a) (byte? s) (byte? (load env binary s).state) := by
  cases hexamine : examine binary with
  | error e =>
    rw [load_of_refused hexamine]
    exact .refl _ _
  | ok asked =>
    obtain ⟨image, ps⟩ := asked
    have hparse := (examine_eq_ok_iff.1 hexamine).1
    rcases load_cases hexamine env s with ⟨s', hload, -, hloaded⟩ |
      ⟨before, item, after, page, s', middle, hitems, hload, -, -, hloaded, hgiven⟩
    · rw [hload]
      exact hloaded.frame.mono fun a ha => ⟨image, hparse, ha⟩
    · rw [hload]
      refine Flat.Frame.trans (hloaded.frame.mono ?_) (hgiven.fills.frame _)
      rintro a ⟨item, hitem, ha⟩
      exact ⟨image, hparse, item, hitems ▸ List.mem_append_left _ hitem, ha⟩

/-- An environment and the memory that its image goes to. -/
structure Loading (σ : Type) where
  env : Environment
  space : σ

/-- Loads `binary` in place. The environment changes once its image is in memory. -/
def loadInPlace {σ : Type} [AddressSpace σ] (binary : Bytes) : Action (Loading σ) LoadError Unit := do
  let l ← Action.state
  let loaded ← (load l.env binary).onPart Loading.space fun space l => { l with space }
  Action.update fun l => { l with env := loaded }

theorem loadInPlace_of_ok {env loaded : Environment} {s s' : SparseSpace}
    (h : load env binary s = ⟨.ok loaded, s', []⟩) :
    loadInPlace binary ⟨env, s⟩ = ⟨.ok (), ⟨loaded, s'⟩, []⟩ := by
  have hpart : (load env binary).onPart Loading.space (fun space l => { l with space })
      (⟨env, s⟩ : Loading SparseSpace) = ⟨.ok loaded, ⟨env, s'⟩, []⟩ := by
    simp only [Action.onPart, h]
  rw [loadInPlace, Action.bind_state_apply, Action.bind_of_ok hpart]
  rfl

theorem loadInPlace_of_error {env : Environment} {s s' : SparseSpace} {e : LoadError}
    (h : load env binary s = ⟨.error e, s', []⟩) :
    loadInPlace binary ⟨env, s⟩ = ⟨.error e, ⟨env, s'⟩, []⟩ := by
  have hpart : (load env binary).onPart Loading.space (fun space l => { l with space })
      (⟨env, s⟩ : Loading SparseSpace) = ⟨.error e, ⟨env, s'⟩, []⟩ := by
    simp only [Action.onPart, h]
  rw [loadInPlace, Action.bind_state_apply, Action.bind_of_error hpart]

/-- Loading `binary` for `env` into memory `s` examines the image before anything happens. -/
structure Validates (env : Environment) (binary : Bytes) (s : SparseSpace) : Prop where
  /-- An image that is refused changes neither the environment nor memory. -/
  refused : ∀ e, (Image.parse binary = .error e ∨
      ∃ image, Image.parse binary = .ok image ∧ plan image = .error e) →
    loadInPlace binary ⟨env, s⟩ = ⟨.error (.malformed e), ⟨env, s⟩, []⟩
  /-- After that, only a page for which a limited space has no room is in the way. -/
  accepted : ∀ image ps, Image.parse binary = .ok image → plan image = .ok ps →
    let done := loadInPlace binary ⟨env, s⟩
    (done.outcome = .ok () ∧ done.state.env =
        { env with tf := { env.tf with rip := image.entry }, binary := some binary }) ∨
      ∃ limit page, s.limit = some limit ∧ done.outcome = .error (.memory (.mapFailed page)) ∧
        done.state.env = env
  unlimited : s.limit = none → ∀ image ps, Image.parse binary = .ok image → plan image = .ok ps →
    (loadInPlace binary ⟨env, s⟩).outcome = .ok ()

/-- Loading validates before it commits. -/
theorem load_validates (env : Environment) (binary : Bytes) (s : SparseSpace) :
    Validates env binary s := by
  have haccepted : ∀ image ps, Image.parse binary = .ok image → plan image = .ok ps →
      let done := loadInPlace binary ⟨env, s⟩
      (done.outcome = .ok () ∧ done.state.env = entered env binary image) ∨
        ∃ limit page, s.limit = some limit ∧ done.outcome = .error (.memory (.mapFailed page)) ∧
          done.state.env = env := by
    intro image ps hparse hplan
    rcases load_cases (examine_eq_ok_iff.2 ⟨hparse, hplan⟩) env s with ⟨s', hload, -, -⟩ |
      ⟨-, -, -, page, s', -, -, hload, hlimit, ⟨limit, hsome, -⟩, -, -⟩
    · rw [loadInPlace_of_ok hload]
      exact .inl ⟨rfl, rfl⟩
    · rw [loadInPlace_of_error hload]
      exact .inr ⟨limit, page, hlimit ▸ hsome, rfl, rfl⟩
  refine ⟨fun e he => ?_, haccepted, fun hlimit image ps hparse hplan => ?_⟩
  · exact loadInPlace_of_error (load_of_refused (examine_eq_error_iff.2 he) env s)
  · rcases haccepted image ps hparse hplan with ⟨hok, -⟩ | ⟨limit, page, hsome, -⟩
    · exact hok
    · rw [hlimit] at hsome
      cases hsome

/-- How loading `image`, which is in `binary`, for `env` into memory `s` ends, and the memory it leaves. -/
inductive Load (env : Environment) (binary : Bytes) (image : Image) (s : SparseSpace) :
    Outcome LoadError Environment → SparseSpace → Prop where
  /-- All items are loaded. -/
  | all {s' : SparseSpace}
      (mapped_iff : ∀ a, s'.isMapped a = true ↔
        s.isMapped a = true ∨ ∃ item ∈ Program.items image, item.Meets a)
      (loaded : Loaded binary (Program.items image) (byte? s) (byte? s')) :
      Load env binary image s (.ok (entered env binary image)) s'
  /-- There was no room for a page of an item, and those before it are loaded. -/
  | partly {before after : List Item} {item : Item} {page : UInt64} {middle : Flat} {s' : SparseSpace}
      (items_eq : Program.items image = before ++ item :: after)
      (loaded : Loaded binary before (byte? s) middle) (givenUp : item.GivenUp page middle (byte? s')) :
      Load env binary image s (.error (.memory (.mapFailed page))) s'

/-- Loading an image that is accepted does what its items ask for, in order and as far as there is room. -/
theorem load_exact (hparse : Image.parse binary = .ok image) (hplan : plan image = .ok ps)
    (env : Environment) (s : SparseSpace) :
    Load env binary image s (load env binary s).outcome (load env binary s).state := by
  rcases load_cases (examine_eq_ok_iff.2 ⟨hparse, hplan⟩) env s with ⟨s', hload, -, hloaded⟩ |
    ⟨before, item, after, page, s', middle, hitems, hload, -, -, hloaded, hgiven⟩
  · rw [hload]
    refine .all (fun a => ?_) hloaded
    rw [SparseSpace.isMapped_eq, SparseSpace.isMapped_eq]
    exact hloaded.mapped_iff a
  · rw [hload]
    exact .partly hitems hloaded hgiven

/-- A string table that goes over bytes of a piece to be loaded. -/
theorem load_exact_overlap : ∃ image ps, Image.parse (smallExecutable 8 0x10004) = .ok image ∧
    plan image = .ok ps ∧ Program.items image = [⟨0x10000, 16, 0, 8⟩, ⟨0x10004, 14, 248, 14⟩] ∧
      let done := load {} (smallExecutable 8 0x10004) ({} : SparseSpace)
      Load {} (smallExecutable 8 0x10004) image {} done.outcome done.state := by
  have hexamine : ((examine (smallExecutable 8 0x10004)).toOption.map fun r => Program.items r.1) =
      some [⟨0x10000, 16, 0, 8⟩, ⟨0x10004, 14, 248, 14⟩] := by decide +kernel
  obtain ⟨⟨image, ps⟩, hok, hitems⟩ := Reading.exists_of_toOption hexamine
  obtain ⟨hparse, hplan⟩ := examine_eq_ok_iff.1 hok
  exact ⟨image, ps, hparse, hplan, hitems, load_exact hparse hplan {} {}⟩

end EnvKernel.Program
