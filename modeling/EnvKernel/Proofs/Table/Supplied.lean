import EnvKernel.Proofs.Table.Hindrance

/-!
Memory that the file supplies. Binding writes to the section called `.bss` alone, so `spares_file` says
that what is loaded from the file is there after a creation as far as no pointer is bound over it. Nothing
makes sure that the section has no bytes in the file: `overwritten_initialized` is an image whose pointer
lies in memory that was loaded, and loses what the file has for it.
-/

namespace EnvKernel.Program

open Elf Memory

variable {binder : Binder} {binary names : Bytes} {image : Image} {table : Bytes} {p : Pointers} {a : UInt64}

/-! ### What the file supplies -/

/-- The file has a byte for the address: it is in a piece to be loaded, or in a section that has bytes in
the file and an address. -/
def Supplied (image : Image) (a : UInt64) : Prop :=
  (∃ ph ∈ image.programHeaders, ph.load = true ∧ ph.paddr.toNat ≤ a.toNat ∧
    a.toNat < ph.paddr.toNat + ph.filesz.toNat) ∨
  ∃ sh ∈ image.sectionHeaders, sh.hasFileData = true ∧ sh.addr ≠ 0 ∧ sh.addr.toNat ≤ a.toNat ∧
    a.toNat < sh.addr.toNat + sh.size.toNat

/-- Supplied is what an item has a byte for. -/
theorem supplied_iff : Supplied image a ↔ ∃ item ∈ items image, item.Supplies a := by
  constructor
  · rintro (⟨ph, hph, hload, hle, hlt⟩ | ⟨sh, hsh, hdata, haddr, hle, hlt⟩)
    · have hsize : ph.filesz.toNat ≤ (Item.ofSegment ph).size := Nat.le_max_right _ _
      exact ⟨_, ofSegment_mem_items hph hload (by omega), hle, hlt⟩
    · refine ⟨_, List.mem_append_right _ (List.mem_map_of_mem (List.mem_filter.2 ⟨hsh, ?_⟩)), hle, hlt⟩
      simp [hdata, haddr]
  · rintro ⟨item, hitem, hle, hlt⟩
    rcases List.mem_append.1 hitem with hsegment | hsection
    · obtain ⟨ph, hph, rfl⟩ := List.mem_map.1 hsegment
      obtain ⟨hmem, hkeep⟩ := List.mem_filter.1 hph
      rw [Bool.and_eq_true] at hkeep
      exact .inl ⟨ph, hmem, hkeep.1, hle, hlt⟩
    · obtain ⟨sh, hsh, rfl⟩ := List.mem_map.1 hsection
      obtain ⟨hmem, hkeep⟩ := List.mem_filter.1 hsh
      rw [Bool.and_eq_true, bne_iff_ne] at hkeep
      exact .inr ⟨sh, hmem, hkeep.1, hkeep.2, hle, hlt⟩

/-- Memory has the byte of the file for the address: that of the last item that has one. -/
def HoldsFileByte (binary : Bytes) (image : Image) (m : Flat) (a : UInt64) : Prop :=
  ∃ item b, lastSupplier? (items image) a = some item ∧ item.byte? binary a = some b ∧ m a = some b

/-- The file has no byte for memory that is called uninitialised. -/
def Apart (image : Image) (p : Pointers) : Prop := ∀ a, p.data.Contains a → ¬ Supplied image a

theorem contains_of_covers {c : Symbol} (hc : c ∈ p.candidates) (ha : Covers c a) : p.data.Contains a := by
  obtain ⟨-, -, hstart, hstop⟩ := mem_candidates_iff.1 hc
  obtain ⟨hle, hlt⟩ := ha
  exact ⟨Nat.le_trans hstart hle, Nat.lt_of_lt_of_le hlt hstop⟩

/-! ### What binding writes -/

/-- In whatever address space, binding writes only to addresses for which `Q` holds: it keeps what such
writes keep. -/
def WritesOnly (binder : Binder) (binary : Bytes) (Q : UInt64 → Prop) : Prop :=
  ∀ {σ : Type} [AddressSpace σ] (P : σ → Prop),
    (∀ s addr source, P s →
      (∀ a : UInt64, addr.toNat ≤ a.toNat → a.toNat < addr.toNat + source.size → Q a) →
        P ((AddressSpace.write addr source : Action σ _ Unit) s).state) →
    ∀ s, P s → P (bind binder binary s).state

theorem WritesOnly.mono {Q Q' : UInt64 → Prop} (h : WritesOnly binder binary Q) (hsub : ∀ a, Q a → Q' a) :
    WritesOnly binder binary Q' :=
  fun P hP => h P fun s addr source hs hsource => hP s addr source hs fun a hle hlt =>
    hsub a (hsource a hle hlt)

section Keeps

variable {σ : Type} [AddressSpace σ] {P : σ → Prop} {Q : UInt64 → Prop}
  (hwrite : ∀ s addr source, P s →
    (∀ a : UInt64, addr.toNat ≤ a.toNat → a.toNat < addr.toNat + source.size → Q a) →
      P ((AddressSpace.write addr source : Action σ _ Unit) s).state)

include hwrite

/-- Binding a pointer is one write to its eight bytes. -/
theorem bindPointer_keeps {c : Symbol} (hc : ∀ a, Covers c a → Q a) (report : Report) {s : σ} (hs : P s) :
    P (bindPointer binder names report c s).state := by
  refine Action.bind_keeps (hwrite s _ _ hs fun a hle hlt => hc a ⟨hle, ?_⟩) fun _ _ => ?_
  · rwa [Word.size_toBytes] at hlt
  · have hsaid := hwrite s c.value (Word.toBytes (resolution binder names c).addr) hs fun a hle hlt =>
      hc a ⟨hle, by rwa [Word.size_toBytes] at hlt⟩
    generalize resolution binder names c = found at hsaid ⊢
    cases found <;> exact hsaid

theorem bindPointers_keeps {cs : List Symbol} (hcs : ∀ c ∈ cs, ∀ a, Covers c a → Q a) (report : Report)
    {s : σ} (hs : P s) : P (bindPointers binder names report cs s).state := by
  induction cs generalizing report s with
  | nil => exact hs
  | cons c cs ih =>
    refine Action.bind_keeps (bindPointer_keeps hwrite (hcs c List.mem_cons_self) report hs) fun _ _ => ?_
    exact ih (fun d hd => hcs d (List.mem_cons_of_mem _ hd)) _
      (bindPointer_keeps hwrite (hcs c List.mem_cons_self) report hs)

end Keeps

/-- Binding writes to uninitialised data alone. -/
theorem writesOnly_data (binder : Binder) (hp : pointersOf binary = .ok p) :
    WritesOnly binder binary p.data.Contains := by
  intro σ _ P hwrite s hs
  rw [bind, hp]
  simp only [Action.state_mapError, filter_isCandidate]
  exact bindPointers_keeps hwrite (fun c hc a ha => contains_of_covers hc ha) {} hs

/-! ### Images with tables of their own -/

/-- A type of sections that stands for the kind. -/
def typeOf : SectionKind → Nat
  | .symbolTable => 2
  | .stringTable => 3
  | .noBits => 8
  | .other => 1

/-- The 64 bytes of a section header. -/
def sectionBytes (sh : SectionHeader) : List UInt8 :=
  Word.littleEndian 4 sh.name.toNat ++ Word.littleEndian 4 (typeOf sh.kind) ++ Word.littleEndian 8 0 ++
    Word.littleEndian 8 sh.addr.toNat ++ Word.littleEndian 8 sh.offset.toNat ++
    Word.littleEndian 8 sh.size.toNat ++ List.replicate 24 0

/-- The 24 bytes of a symbol for a data object that all object files see. -/
def objectBytes (name value : Nat) : List UInt8 :=
  Word.littleEndian 4 name ++ [0x11, 0] ++ Word.littleEndian 2 0 ++ Word.littleEndian 8 value ++
    Word.littleEndian 8 8

/-- The texts `.bss` at 1, `.strtab` at 6 and `f` at 14, in 16 bytes. -/
def sectionTexts : List UInt8 :=
  [0, 0x2e, 0x62, 0x73, 0x73, 0, 0x2e, 0x73, 0x74, 0x72, 0x74, 0x61, 0x62, 0, 0x66, 0]

/-- An executable whose first 16 bytes go to address 0x10000. The last of its sections has the names of all
sections; contents of sections begin behind the headers. -/
def executable (sections : List SectionHeader) (contents : List UInt8) : Bytes :=
  let word := Word.littleEndian 8
  let half := Word.littleEndian 4
  let short := Word.littleEndian 2
  let header := Elf.magic.toList ++ [2, 1, 1] ++ List.replicate 9 0 ++ short 2 ++ short 62 ++ half 1 ++
    word 0x10000 ++ word 64 ++ word 120 ++ half 0 ++ short 64 ++ short 56 ++ short 1 ++ short 64 ++
    short sections.length ++ short (sections.length - 1)
  let piece := half 1 ++ half 6 ++ word 0 ++ word 0x10000 ++ word 0x10000 ++ word 16 ++ word 16 ++ word 4096
  (Bytes.ofArray? (header ++ piece ++ sections.flatMap sectionBytes ++ contents).toArray).getD .empty

/-- An executable whose `.bss` has eight bytes in the file, and a pointer there. -/
def initializedExecutable : Bytes :=
  executable [⟨1, .other, 0x10000, 0, 8⟩, ⟨0, .symbolTable, 0, 328, 24⟩, ⟨6, .stringTable, 0, 312, 16⟩]
    (sectionTexts ++ objectBytes 14 0x10000)

/-- An executable with a pointer right behind the bytes of its file, called `f`. -/
def pointerExecutable : Bytes :=
  executable [⟨1, .noBits, 0x10010, 0, 8⟩, ⟨0, .symbolTable, 0, 328, 24⟩, ⟨6, .stringTable, 0, 312, 16⟩]
    (sectionTexts ++ objectBytes 14 0x10010)

/-- What there is to load and to bind of `pointerExecutable`. -/
theorem exists_pointerExecutable : ∃ image ps p, examine pointerExecutable = .ok (image, ps) ∧
    pointersOf pointerExecutable = .ok p ∧ items image = [⟨0x10000, 16, 0, 16⟩] ∧
    p.data = ⟨0x10010, 0x10018⟩ ∧ p.candidates = [⟨14, true, true, 0, 0x10010, 8⟩] ∧
    p.candidates.map (symbolName? p.names) = [some "f"] := by
  have hexamine : ((examine pointerExecutable).toOption.map fun r => items r.1) =
      some [⟨0x10000, 16, 0, 16⟩] := by decide +kernel
  have hpointers : ((pointersOf pointerExecutable).toOption.map fun p =>
      (p.data, p.candidates, p.candidates.map (symbolName? p.names))) =
        some (⟨0x10010, 0x10018⟩, [⟨14, true, true, 0, 0x10010, 8⟩], [some "f"]) := by decide +kernel
  obtain ⟨⟨image, ps⟩, hok, hitems⟩ := Reading.exists_of_toOption hexamine
  obtain ⟨p, hp, hfacts⟩ := Reading.exists_of_toOption hpointers
  simp only [Prod.mk.injEq] at hfacts
  exact ⟨image, ps, p, hok, hp, hitems, hfacts⟩

/-- The pointer of `pointerExecutable` lies on the page that its bytes are loaded to. -/
theorem meets_pointerExecutable {a : UInt64} (ha : Covers ⟨14, true, true, 0, 0x10010, 8⟩ a) :
    Item.Meets ⟨0x10000, 16, 0, 16⟩ a := by
  have hle : 0x10010 ≤ a.toNat := ha.1
  have hlt : a.toNat < 0x10010 + 8 := ha.2
  exact ⟨0x10000, Nat.le_refl _, by decide, by omega⟩

end EnvKernel.Program

namespace EnvKernel.Env

open Elf Memory EnvTable
open Program (Supplied HoldsFileByte Apart WritesOnly Covers)

variable {binder : Binder} {binary : Bytes} {image : Image} {table : Bytes} {p : Program.Pointers}

/-- What is loaded from the file is there in the end where no pointer is bound over it. -/
theorem Furnished.holdsFileByte {stack : Range} {m m' : Flat} {a : UInt64}
    (h : Furnished binder binary stack m m') (hparse : Image.parse binary = .ok image)
    (hp : Program.pointersOf binary = .ok p) (ha : Supplied image a)
    (hout : ∀ c ∈ p.candidates, ¬ Covers c a) : HoldsFileByte binary image m' a := by
  obtain ⟨parsed, found, loaded, -, rfl⟩ := h
  rw [parsed] at hparse
  cases hparse
  rw [Program.pointersOf_eq_ok_iff.2 ⟨_, _, parsed, found⟩] at hp
  cases hp
  cases hlast : Program.lastSupplier? (Program.items image) a with
  | none =>
    obtain ⟨item, hitem, hsupplies⟩ := Program.supplied_iff.1 ha
    exact absurd hsupplies (Program.lastSupplier?_eq_none_iff.1 hlast item hitem)
  | some item =>
    obtain ⟨b, hb, hm⟩ := loaded.supplied a item hlast
    exact ⟨item, b, hlast, hb, by rw [Program.bound_of_not_covers hout, hm]⟩

/-- A table of environments that share empty memory has room for an image whose pointers lie where it is
loaded. -/
theorem exists_create_of_meets {ps : List Program.Placement}
    (hexamine : Program.examine binary = .ok (image, ps)) (hp : Program.pointersOf binary = .ok p)
    (hmeets : ∀ c ∈ p.candidates, ∀ a, Covers c a → ∃ item ∈ Program.items image, item.Meets a)
    (binder : Binder) : ∃ (t : EnvTable 2) (id : EnvId), EnvTable.new 2 (.kernelSpace ⟨8, 16⟩) = .ok t ∧
      (create binder binary .user (⟨t, {}⟩ : World 2 SparseSpace)).outcome = .ok id := by
  obtain ⟨t, ht⟩ : ∃ t : EnvTable 2, EnvTable.new 2 (.kernelSpace ⟨8, 16⟩) = .ok t := ⟨_, rfl⟩
  have hhead : t.freeHead = some 0 := by cases ht; rfl
  have hbounded : t.config.layout.Bounded := by cases ht; trivial
  exact ⟨t, _, ht,
    (fresh_of_new ht).sound.create_of_unlimited hbounded hhead rfl hexamine hp hmeets binder .user⟩

/-- What binding the pointers of `binary` leaves of the bytes that its file supplies. -/
structure SparesFile (binder : Binder) (binary : Bytes) (image : Image) (p : Program.Pointers) : Prop where
  /-- Binding writes to uninitialised data alone. -/
  writes : WritesOnly binder binary p.data.Contains
  /-- So it writes to nothing that the file supplies, if the file has no byte for uninitialised data. -/
  apart : Apart image p → WritesOnly binder binary fun a => ¬ Supplied image a
  /-- In every table that can come about a creation that succeeds leaves in memory what the file supplies,
  where no pointer is bound over it. -/
  created : ∀ {n : Nat} {config : Config} {t : EnvTable n}, EnvTable.new n config = .ok t →
    ∀ (ops : List Op) (s : SparseSpace) (kind : Kind),
      let made := create binder binary kind ⟨t.run ops, s⟩
      (∃ id, made.outcome = .ok id) → ∀ a, Supplied image a →
        Apart image p ∨ (∀ c ∈ p.candidates, ¬ Covers c a) →
          HoldsFileByte binary image (byte? made.state.space) a

theorem spares_file (binder : Binder) (hparse : Image.parse binary = .ok image) (hp : p.Found image table) :
    SparesFile binder binary image p := by
  have hpointers := Program.pointersOf_eq_ok_iff.2 ⟨image, table, hparse, hp⟩
  have hwrites : WritesOnly binder binary p.data.Contains := Program.writesOnly_data binder hpointers
  refine ⟨hwrites, fun hapart => hwrites.mono hapart, ?_⟩
  rintro n config t h ops s kind made ⟨handle, hok⟩ a ha hout
  obtain ⟨stack, hfurnished, -⟩ := ((fresh_of_new h).sound.run ops).furnished_create hok
  refine hfurnished.holdsFileByte hparse hpointers ha (hout.elim (fun hapart c hc hcovers => ?_) id)
  exact hapart a (Program.contains_of_covers hc hcovers) ha

/-- Eight bytes behind the file are bound to a function, and all that the file supplies is there. -/
theorem spares_file_small : ∃ image table p, Image.parse Program.pointerExecutable = .ok image ∧
    p.Found image table ∧ Apart image p ∧
    let binder : Binder := { exports := [⟨"f", 0x1234⟩] }
    SparesFile binder Program.pointerExecutable image p ∧
    ∃ (t : EnvTable 2) (id : EnvId), EnvTable.new 2 (.kernelSpace ⟨8, 16⟩) = .ok t ∧
      let made := create binder Program.pointerExecutable .user (⟨t, {}⟩ : World 2 SparseSpace)
      made.outcome = .ok id ∧ made.state.space.readWord 0x10010 = .ok 0x1234 ∧
        ∀ a : UInt64, 0x10000 ≤ a.toNat → a.toNat < 0x10010 →
          HoldsFileByte Program.pointerExecutable image (byte? made.state.space) a := by
  let binder : Binder := { exports := [⟨"f", 0x1234⟩] }
  obtain ⟨image, ps, p, hexamine, hp, hitems, hdata, hcandidates, hname⟩ := Program.exists_pointerExecutable
  have hparse := (Program.examine_eq_ok_iff.1 hexamine).1
  obtain ⟨image', table, hparse', hfound⟩ := Program.pointersOf_eq_ok_iff.1 hp
  cases hparse.symm.trans hparse'
  have hspares := spares_file binder hparse hfound
  have happart : Apart image p := fun a ha hsupplied => by
    obtain ⟨item, hitem, -, hlt⟩ := Program.supplied_iff.1 hsupplied
    rw [hitems, List.mem_singleton] at hitem
    rw [hdata] at ha
    subst hitem
    exact absurd (Nat.lt_of_le_of_lt ha.1 hlt) (by decide)
  obtain ⟨t, id, hnew, hcreated⟩ := exists_create_of_meets hexamine hp (fun c hc a ha => by
    rw [hcandidates, List.mem_singleton] at hc
    subst hc
    exact ⟨_, hitems ▸ List.mem_cons_self, Program.meets_pointerExecutable ha⟩) binder
  obtain ⟨stack, hfurnished, -⟩ := (fresh_of_new hnew).sound.furnished_create hcreated
  refine ⟨image, table, p, hparse, hfound, happart, hspares, t, id, hnew, hcreated, ?_, fun a hle hlt => ?_⟩
  · have hlast : p.candidates = [] ++ ⟨14, true, true, 0, 0x10010, 8⟩ :: [] := hcandidates
    have hword := hfurnished.readWord_pointer hp hlast fun _ hd => absurd hd List.not_mem_nil
    rw [hcandidates, List.map_singleton] at hname
    rwa [Program.target, List.singleton_inj.1 hname] at hword
  · refine hspares.created hnew [] {} .user ⟨id, hcreated⟩ a ?_ (.inl happart)
    rw [Program.supplied_iff, hitems]
    exact ⟨_, List.mem_cons_self, hle, hlt⟩

/-- The section called `.bss` has bytes in the file. A creation loads them, and then binds a pointer over
them. -/
theorem overwritten_initialized : ∃ (t : EnvTable 2) (image : Image) (id : EnvId),
    EnvTable.new 2 (.kernelSpace ⟨8, 16⟩) = .ok t ∧
      Image.parse Program.initializedExecutable = .ok image ∧ Supplied image 0x10000 ∧
      let made := create {} Program.initializedExecutable .user (⟨t, {}⟩ : World 2 SparseSpace)
      made.outcome = .ok id ∧ byte? made.state.space 0x10000 = some 0 ∧
        ¬ HoldsFileByte Program.initializedExecutable image (byte? made.state.space) 0x10000 := by
  let binary := Program.initializedExecutable
  have hexamine : ((Program.examine binary).toOption.map fun r => Program.items r.1) =
      some [⟨0x10000, 16, 0, 16⟩, ⟨0x10000, 8, 0, 8⟩] := by decide +kernel
  have hpointers : ((Program.pointersOf binary).toOption.map (·.candidates)) =
      some [⟨14, true, true, 0, 0x10000, 8⟩] := by decide +kernel
  have hfile : Program.Item.byte? ⟨0x10000, 8, 0, 8⟩ binary 0x10000 = some 0x7f := by decide +kernel
  obtain ⟨⟨image, ps⟩, hok, hitems⟩ := Reading.exists_of_toOption hexamine
  obtain ⟨p, hp, hcandidates⟩ := Reading.exists_of_toOption hpointers
  have hparse := (Program.examine_eq_ok_iff.1 hok).1
  obtain ⟨t, id, ht, hcreated⟩ := exists_create_of_meets hok hp (fun c hc a ha => by
    rw [hcandidates, List.mem_singleton] at hc
    subst hc
    rw [hitems]
    have hlt : a.toNat < 0x10000 + 8 := ha.2
    exact ⟨_, List.mem_cons_self, a.toNat, ha.1, by dsimp only; omega, rfl⟩) {}
  obtain ⟨stack, hfurnished, -⟩ := (fresh_of_new ht).sound.furnished_create hcreated
  have hbyte : byte? (create {} binary .user (⟨t, {}⟩ : World 2 SparseSpace)).state.space 0x10000 =
      some 0 := by
    obtain ⟨parsed, found, -, -, bytes⟩ := hfurnished
    rw [Program.pointersOf_eq_ok_iff.2 ⟨_, _, parsed, found⟩] at hp
    cases hp
    have htarget : ∀ names c, Program.target {} names c = 0 := fun names c => by
      rw [Program.target]
      split <;> rfl
    rw [bytes, hcandidates, Program.bound, List.foldl_cons, List.foldl_nil, htarget, Flat.write,
      if_pos (by decide)]
    decide
  refine ⟨t, image, id, ht, hparse, ?_, hcreated, hbyte, ?_⟩
  · rw [Program.supplied_iff, hitems]
    exact ⟨_, List.mem_cons_self, by decide⟩
  · rintro ⟨item, b, hlast, hb, hm⟩
    have hsection : Program.lastSupplier? [⟨0x10000, 16, 0, 16⟩, ⟨0x10000, 8, 0, 8⟩] 0x10000 =
        some ⟨0x10000, 8, 0, 8⟩ := by decide
    rw [hitems, hsection] at hlast
    cases hlast
    rw [hfile] at hb
    cases hb
    rw [hbyte] at hm
    cases hm

end EnvKernel.Env
