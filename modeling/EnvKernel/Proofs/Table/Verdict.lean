import EnvKernel.Proofs.Table.Generation
import EnvKernel.Proofs.Table.Hindrance
import EnvKernel.Proofs.Table.Stacks
import EnvKernel.Proofs.Table.Supplied

/-!
How creations end where environments share memory that has no limit. `verdict_run` is the main statement:
a creation succeeds exactly if a slot is free, the image is accepted and has the sections that binding
looks for, and all of its pointers lie in memory that was there or that the stack and the image get.
Otherwise the error is that of the first of these which fails. One that succeeds adds one environment
with a fresh handle and a stack of its own, which starts at the entry point of its image, and the
pointers lead to the functions of their names. Of several sections with one name only the first counts,
as `first_sections_decide` shows.
-/

namespace EnvKernel

namespace Program

open Elf Memory

/-! ### Images with sections of one name -/

/-- A string table called `.strtab`, which is where the names of sections are in an executable with two other
sections. -/
def textSection : SectionHeader := ⟨6, .stringTable, 0, 312, 16⟩

/-- Two sections called `.bss`, of which the first wraps, and the names of all. -/
def wrappingSections : List SectionHeader :=
  [⟨1, .noBits, 0xfffffffffffffff8, 0, 16⟩, ⟨1, .noBits, 0x10008, 0, 8⟩, textSection]

/-- Two string tables called `.strtab`, of which the first is not in the file and the other has the names
of all sections. -/
def outsideSections : List SectionHeader :=
  [⟨1, .noBits, 0x10008, 0, 8⟩, ⟨6, .stringTable, 0, 512, 16⟩, textSection]

def wrappingExecutable : Bytes := executable wrappingSections sectionTexts

def outsideExecutable : Bytes := executable outsideSections sectionTexts

/-- The names of sections as a table. -/
def sectionTable : Bytes := (Bytes.ofArray? sectionTexts.toArray).getD .empty

theorem isSymbolTexts_textSection : isSymbolTexts sectionTable textSection = true := by decide +kernel

/-- What there is to know of the sections of an image that is accepted. -/
theorem exists_image {binary table : Bytes} {headers : List SectionHeader} {names : SectionHeader}
    {size : Nat} (h : ((examine binary).toOption.map fun r =>
      (r.1.sectionHeaders, r.1.sectionNames?, (r.1.sectionData names).toOption, r.1.bytes.size)) =
        some (headers, some names, some table, size)) :
    ∃ image ps, Image.parse binary = .ok image ∧ plan image = .ok ps ∧ image.sectionHeaders = headers ∧
      image.sectionNames? = some names ∧ image.sectionData names = .ok table ∧ image.bytes.size = size := by
  obtain ⟨⟨image, ps⟩, hok, hfacts⟩ := Reading.exists_of_toOption h
  obtain ⟨hparse, hplan⟩ := examine_eq_ok_iff.1 hok
  simp only [Prod.mk.injEq] at hfacts
  obtain ⟨hheaders, hnames, hdata, hsize⟩ := hfacts
  refine ⟨image, ps, hparse, hplan, hheaders, hnames, ?_, hsize⟩
  cases hslice : image.sectionData names with
  | error e =>
    rw [hslice] at hdata
    cases hdata
  | ok data =>
    rw [hslice] at hdata
    cases hdata
    rfl

/-- The image in `binary` is accepted, and it has all sections that binding looks for as they should be, if
perhaps not first of their names. It has no symbols. -/
structure HasSections (binary : Bytes) (image : Image) (table : Bytes) : Prop where
  parsed : Image.parse binary = .ok image
  planned : ∃ ps, plan image = .ok ps
  texts : SectionTexts image table
  data : ∃ sh ∈ image.sectionHeaders, isNamed table ".bss" sh = true ∧
    sh.addr.toNat + sh.size.toNat < 0x10000000000000000
  symbolTexts : ∃ sh ∈ image.sectionHeaders, isSymbolTexts table sh = true ∧ InFile image sh
  noSymbols : ∀ sh ∈ image.sectionHeaders, sh.kind ≠ .symbolTable

theorem unbindable_wrapping : ∃ image, HasSections wrappingExecutable image sectionTable ∧
    Unbindable image (.malformed (.addressOverflow 0xfffffffffffffff8 16)) := by
  have hfacts : ((examine wrappingExecutable).toOption.map fun r =>
      (r.1.sectionHeaders, r.1.sectionNames?, (r.1.sectionData textSection).toOption, r.1.bytes.size)) =
        some (wrappingSections, some textSection, some sectionTable, 328) := by decide +kernel
  obtain ⟨image, ps, hparse, hplan, hheaders, hnames, hdata, -⟩ := exists_image hfacts
  have htexts : SectionTexts image sectionTable := ⟨textSection, hnames, rfl, hdata⟩
  have hfirst : image.sectionHeaders.find? (isNamed sectionTable ".bss") =
      some ⟨1, .noBits, 0xfffffffffffffff8, 0, 16⟩ := by
    rw [hheaders]
    decide +kernel
  refine ⟨image, ⟨hparse, ⟨ps, hplan⟩, htexts, ?_, ?_, ?_⟩, .wraps htexts hfirst (by decide)⟩
  all_goals rw [hheaders]
  · exact ⟨⟨1, .noBits, 0x10008, 0, 8⟩, by decide, by decide +kernel, by decide⟩
  · exact ⟨textSection, by decide, isSymbolTexts_textSection, inFile_iff.2 ⟨_, hdata⟩⟩
  · decide

theorem unbindable_outside : ∃ image, HasSections outsideExecutable image sectionTable ∧
    Unbindable image (.malformed (.outOfBounds ⟨512, 16, 328⟩)) := by
  have hfacts : ((examine outsideExecutable).toOption.map fun r =>
      (r.1.sectionHeaders, r.1.sectionNames?, (r.1.sectionData textSection).toOption, r.1.bytes.size)) =
        some (outsideSections, some textSection, some sectionTable, 328) := by decide +kernel
  obtain ⟨image, ps, hparse, hplan, hheaders, hnames, hdata, hsize⟩ := exists_image hfacts
  have htexts : SectionTexts image sectionTable := ⟨textSection, hnames, rfl, hdata⟩
  have hbss : image.sectionHeaders.find? (isNamed sectionTable ".bss") =
      some ⟨1, .noBits, 0x10008, 0, 8⟩ := by
    rw [hheaders]
    decide +kernel
  have hfirst : image.sectionHeaders.find? (isSymbolTexts sectionTable) =
      some ⟨6, .stringTable, 0, 512, 16⟩ := by
    rw [hheaders]
    decide +kernel
  have hout : ¬ InFile image ⟨6, .stringTable, 0, 512, 16⟩ := by
    rw [InFile, hsize]
    decide
  have hreason := Unbindable.symbolTexts htexts ⟨_, hbss, by decide⟩ hfirst hout
  rw [outside, hsize] at hreason
  refine ⟨image, ⟨hparse, ⟨ps, hplan⟩, htexts, ?_, ?_, ?_⟩, hreason⟩
  · exact ⟨_, List.mem_of_find?_eq_some hbss, List.find?_some hbss, by decide⟩
  · rw [hheaders]
    exact ⟨textSection, by decide, isSymbolTexts_textSection, inFile_iff.2 ⟨_, hdata⟩⟩
  · rw [hheaders]
    decide

end Program

namespace Env

open Elf Memory
open Program (Covers)

variable {n : Nat} {binder : Binder} {binary : Bytes} {kind : Kind} {stack : Range} {s : SparseSpace}
  {t : EnvTable n} {i : Fin n} {top size : UInt64} {e : EnvError} {image : Image} {p : Program.Pointers}
  {id : EnvId}

namespace EnvTable

/-! ### Creations -/

/-- The table and memory are such that an environment for `binary` is created in slot `i`. -/
structure Creatable (top size : UInt64) (t : EnvTable n) (s : SparseSpace) (binary : Bytes) (i : Fin n)
    (stack : Range) (image : Image) (p : Program.Pointers) : Prop where
  head : t.freeHead = some i
  stackOf : StackOf top size i stack
  furnishable : Furnishable s stack binary image p

/-- Why no environment for `binary` is created. -/
inductive Denied (top size : UInt64) (t : EnvTable n) (s : SparseSpace) (binary : Bytes) :
    EnvError → Prop where
  | full (noneFree : ∀ i : Fin n, t[i].status ≠ .free) : Denied top size t s binary .noFreeSlots
  | hindered {i : Fin n} {stack : Range} {e : EnvError} (head : t.freeHead = some i)
      (stackOf : StackOf top size i stack) (hindrance : Hindrance s stack binary e) :
      Denied top size t s binary e

/-- World `w` after environment `id` was created in slot `i` of table `t`, whose history is `past`. The
environment has the given stack, and `image`, which is in `binary`, has the pointers `p`. -/
structure Created (kernel : Selectors) (past : List (Event n)) (binder : Binder) (binary : Bytes)
    (t : EnvTable n) (i : Fin n) (stack : Range) (image : Image) (p : Program.Pointers) (id : EnvId)
    (w : World n SparseSpace) : Prop where
  /-- The handle was refused so far. -/
  stale : Refused id t
  /-- It is none of the last handles of a slot, as long as one takes fewer of them than there are
  generations. -/
  fresh : ∀ j row, row <:+ handles j past → row.length < EnvId.generations → id ∉ row
  free : t[i].status = .free
  list : t.freeList = i :: w.envs.freeList
  found : w.envs.resolveEnv id = .ok i
  /-- All other registers are zero. -/
  env_eq : w.envs[i] = {
    id, parent := .none, status := .runnable, kind := .kernel, runs := 0
    tf := {
      es := kernel.data.toUInt64, ds := kernel.data.toUInt64, rip := image.entry
      cs := kernel.code.toUInt64, rsp := stack.stop, ss := kernel.data.toUInt64 }
    binary := some binary }
  others : ∀ j, j ≠ i → w.envs[j] = t[j]
  current_eq : w.envs.current = t.current
  config_eq : w.envs.config = t.config
  region : (stackRegion id w.envs).outcome = .ok stack
  mapped : ∀ a, stack.Contains a → w.space.isMapped a = true
  /-- Pointers that no later one overlaps lead to the functions of their names. -/
  reads : ∀ before c after, p.candidates = before ++ c :: after →
    (∀ d ∈ after, ∀ a, Covers c a → ¬ Covers d a) →
      w.space.readWord c.value = .ok (Program.target binder p.names c)

section Shared

variable (h : Sound t) (hlayout : t.config.layout = .shared top size)

include h hlayout

/-- A creation in slot `i` furnishes memory with the stack of the slot, and ends as that does. -/
theorem Sound.exists_furnish (hhead : t.freeHead = some i) (binder : Binder) (binary : Bytes) (kind : Kind)
    (s : SparseSpace) : ∃ env stack, StackOf top size i stack ∧ stack.start ≤ stack.stop ∧
      let made := create binder binary kind ⟨t, s⟩
      let furnished := furnish binder binary env stack s
      made.state.space = furnished.state ∧ made.outcome = match furnished.outcome with
        | .ok () => .ok (t[i].id.next i.val)
        | .error e => .error e
        | .stop how => .stop how := by
  obtain ⟨stack, hstack, htop, hbottom⟩ := h.exists_stackOf hlayout i
  exact ⟨_, stack, hstack, Word.le_of_sub? hbottom, h.create_agrees hhead htop hbottom binder binary kind s⟩

/-- Nothing stops the kernel while an environment is created. -/
theorem Sound.create_ne_stop (how : Stop) : (create binder binary kind ⟨t, s⟩).outcome ≠ .stop how := by
  cases hhead : t.freeHead with
  | none =>
    rw [create_of_empty binder hhead]
    nofun
  | some i =>
    obtain ⟨env, stack, -, -, -, hend⟩ := h.exists_furnish hlayout hhead binder binary kind s
    intro hstop
    rw [hend] at hstop
    cases hfurnish : (furnish binder binary env stack s).outcome with
    | ok | error =>
      rw [hfurnish] at hstop
      cases hstop
    | stop how' => exact not_memoryStops_sparse _ (stopsOnly_furnish binder binary env stack s _ hfurnish)

variable (hlimit : s.limit = none)

include hlimit

/-- An environment is created exactly if it can be. -/
theorem Sound.create_eq_ok_iff : (create binder binary kind ⟨t, s⟩).outcome = .ok id ↔
    ∃ i stack image p, Creatable top size t s binary i stack image p ∧ id = t[i].id.next i.val := by
  cases hhead : t.freeHead with
  | none =>
    rw [create_of_empty binder hhead]
    refine iff_of_false nofun ?_
    rintro ⟨i, stack, image, p, hcreatable, -⟩
    cases hhead.symm.trans hcreatable.head
  | some i =>
    obtain ⟨env, stack, hstack, hle, -, hend⟩ := h.exists_furnish hlayout hhead binder binary kind s
    have hok : (create binder binary kind ⟨t, s⟩).outcome = .ok id ↔
        (furnish binder binary env stack s).outcome = .ok () ∧ id = t[i].id.next i.val := by
      rw [hend]
      cases (furnish binder binary env stack s).outcome <;> simp [eq_comm]
    rw [hok, furnish_eq_ok_iff hle hlimit]
    constructor
    · rintro ⟨⟨image, p, hfurnishable⟩, hid⟩
      exact ⟨i, stack, image, p, ⟨hhead, hstack, hfurnishable⟩, hid⟩
    · rintro ⟨j, stack', image, p, ⟨hhead', hstack', hfurnishable⟩, hid⟩
      cases hhead.symm.trans hhead'
      cases hstack.unique hstack'
      exact ⟨⟨image, p, hfurnishable⟩, hid⟩

/-- The error is the first reason why it cannot. -/
theorem Sound.create_eq_error_iff : (create binder binary kind ⟨t, s⟩).outcome = .error e ↔
    Denied top size t s binary e := by
  cases hhead : t.freeHead with
  | none =>
    have hfull : ∀ i : Fin n, t[i].status ≠ .free := fun i hfree => by
      have hmem := (h.mem_iff i).2 hfree
      rw [List.head?_eq_none_iff.1 (h.head_eq.symm.trans hhead)] at hmem
      cases hmem
    rw [create_of_empty binder hhead]
    constructor
    · rintro ⟨⟩
      exact .full hfull
    · intro hdenied
      cases hdenied with
      | full => rfl
      | hindered head => cases hhead.symm.trans head
  | some i =>
    obtain ⟨env, stack, hstack, hle, -, hend⟩ := h.exists_furnish hlayout hhead binder binary kind s
    have herror : (create binder binary kind ⟨t, s⟩).outcome = .error e ↔
        (furnish binder binary env stack s).outcome = .error e := by
      rw [hend]
      cases (furnish binder binary env stack s).outcome <;> simp
    rw [herror, furnish_eq_error_iff hle hlimit]
    constructor
    · exact .hindered hhead hstack
    · intro hdenied
      cases hdenied with
      | full noneFree => exact absurd (h.free_of_head hhead) (noneFree i)
      | hindered head stackOf hindrance =>
        cases hhead.symm.trans head
        cases hstack.unique stackOf
        exact hindrance

end Shared

/-- The handle of the next occupant of a slot is none of those that were given out last. -/
theorem Sound.fresh_next (h : Sound t) {past : List (Event n)} (hn : Numbered past t) (i j : Fin n)
    {row : List EnvId} (hrow : row <:+ handles j past) (hlen : row.length < EnvId.generations) :
    t[i].id.next i.val ∉ row := by
  intro hmem
  have hid : t[i].id.next i.val = .occupant i ((handles i past).length + 1) := by
    rw [EnvId.occupant, ← (hn i).1]
  have hall := (hn j).2
  rw [hid] at hmem
  by_cases hij : i = j
  · subst hij
    -- with the new handle at its end the row is one of occupants that are not too many
    set new := EnvId.occupant i ((handles i past).length + 1) with hnew
    have hinfix : row ++ [new] <:+:
        (List.range ((handles i past).length + 1)).map fun k => EnvId.occupant i (k + 1) := by
      rw [List.range_succ, List.map_append, ← hall]
      obtain ⟨front, hfront⟩ := hrow
      exact ⟨front, [], by rw [List.append_nil, ← List.append_assoc, hfront]; rfl⟩
    obtain ⟨start, hstart⟩ := eq_map_of_infix hinfix
    have hnodup := nodup_occupants (h.slot_lt i) start (show (row ++ [new]).length ≤ _ by
      rw [List.length_append, List.length_singleton]
      exact hlen)
    rw [← hstart] at hnodup
    exact (List.nodup_append.1 hnodup).2.2 _ hmem _ List.mem_cons_self rfl
  · have hold := hrow.subset hmem
    rw [hall, List.mem_map] at hold
    obtain ⟨k, -, heq⟩ := hold
    have hslot := congrArg EnvId.slot heq
    rw [EnvId.slot_occupant (h.slot_lt j), EnvId.slot_occupant (h.slot_lt i)] at hslot
    exact hij (Fin.ext hslot.symm)

/-- What is there once an environment was created. -/
theorem Sound.created (h : Sound t) (hlayout : t.config.layout = .shared top size) {past : List (Event n)}
    (hn : Numbered past t) (hcreatable : Creatable top size t s binary i stack image p)
    (hok : (create binder binary kind ⟨t, s⟩).outcome = .ok (t[i].id.next i.val)) :
    Created t.config.kernel past binder binary t i stack image p (t[i].id.next i.val)
      (create binder binary kind ⟨t, s⟩).state := by
  obtain ⟨hhead, hstackOf, ⟨parsed, -, ⟨table, found⟩, -⟩⟩ := hcreatable
  obtain ⟨own, hown, htop, hbottom⟩ := h.exists_stackOf hlayout i
  cases hstackOf.unique hown
  -- the slot is handed out and loaded
  obtain ⟨⟨image', ps⟩, hexamine, henvs⟩ := h.envs_create binder hhead htop hok
  cases (Program.examine_eq_ok_iff.1 hexamine).1.symm.trans parsed
  set taken := t.take i (t.newcomer i .none kind stack.stop) with htaken
  have hfound : (taken.load i image.entry binary).resolveEnv (t[i].id.next i.val) = .ok i :=
    (h.resolveEnv_prepared hhead htop (.inr ⟨_, rfl⟩)).2
  have hid : t[i].id.next i.val = .occupant i ((handles i past).length + 1) := by
    rw [EnvId.occupant, ← (hn i).1]
  -- memory is furnished
  obtain ⟨hspace, hend⟩ := h.create_agrees hhead htop hbottom binder binary kind s
  have hfurnished : Furnished binder binary stack (byte? s)
      (byte? (create binder binary kind ⟨t, s⟩).state.space) := by
    rw [hspace]
    rcases furnish_cases (Word.le_of_sub? hbottom) binder binary (t.newcomer i .none kind stack.stop) s with
      ⟨-, -, hfurnished⟩ | ⟨e, herror⟩
    · exact hfurnished
    · rw [hend, herror] at hok
      cases hok
  exact {
    stale := hid ▸ (h.refused_iff i _).2 (.inl (h.free_of_head hhead))
    fresh := fun j row hrow hlen => h.fresh_next hn i j hrow hlen
    free := h.free_of_head hhead
    list := by rw [henvs, load, freeList_modify, (h.freeList_take hhead _).1]
    found := henvs ▸ hfound
    env_eq := by
      rw [henvs, load, slots_modify_self, slots_take_self, newcomer, kindFor, hlayout]
      rfl
    others := fun j hj => by
      rw [henvs, load, slots_modify_other _ _ hj, slots_take_other t _ hj]
    current_eq := by rw [henvs]; rfl
    config_eq := by rw [henvs]; rfl
    region := henvs ▸ congrArg Effect.outcome (stackRegion_of_some hfound htop hbottom)
    mapped := fun a ha => by
      rw [SparseSpace.isMapped_eq]
      exact hfurnished.isSome_stack ha
    reads := fun before c after hsplit hafter =>
      hfurnished.readWord_pointer (Program.pointersOf_eq_ok_iff.2 ⟨_, _, parsed, found⟩) hsplit hafter }

/-- How creations of an environment for `binary` in table `t`, whose history is `past`, and memory `s` end. -/
structure Verdict (top size : UInt64) (kernel : Selectors) (past : List (Event n)) (binder : Binder)
    (binary : Bytes) (kind : Kind) (t : EnvTable n) (s : SparseSpace) : Prop where
  ok_iff : (∃ id, (create binder binary kind ⟨t, s⟩).outcome = .ok id) ↔
    ∃ i stack image p, Creatable top size t s binary i stack image p
  error_iff : ∀ e, (create binder binary kind ⟨t, s⟩).outcome = .error e ↔ Denied top size t s binary e
  noStop : ∀ how, (create binder binary kind ⟨t, s⟩).outcome ≠ .stop how
  created : ∀ id, (create binder binary kind ⟨t, s⟩).outcome = .ok id →
    ∀ i stack image p, Creatable top size t s binary i stack image p →
      Created kernel past binder binary t i stack image p id
        (create binder binary kind ⟨t, s⟩).state

/-- In every table that can come about where environments share memory, a creation in memory without a limit
succeeds exactly if nothing is in its way, and otherwise tells the first thing that is. -/
theorem verdict_run {kernel user : Selectors} {t : EnvTable n}
    (h : new n { layout := .shared top size, kernel, user } = .ok t) (ops : List Op) (binder : Binder)
    (binary : Bytes) (kind : Kind) {s : SparseSpace} (hlimit : s.limit = none) :
    Verdict top size kernel (t.history ops) binder binary kind (t.run ops) s := by
  have hfresh := fresh_of_new h
  have hsound := hfresh.sound.run ops
  have hconfig : (t.run ops).config = { layout := .shared top size, kernel, user } := by
    rw [hfresh.sound.config_run, hfresh.config_eq]
  have hlayout : (t.run ops).config.layout = .shared top size := by rw [hconfig]
  have hok : ∀ id, (create binder binary kind ⟨t.run ops, s⟩).outcome = .ok id ↔ _ := fun _ =>
    hsound.create_eq_ok_iff hlayout hlimit
  refine ⟨?_, fun e => hsound.create_eq_error_iff hlayout hlimit, hsound.create_ne_stop hlayout,
    fun id hid i stack image p hcreatable => ?_⟩
  · constructor
    · rintro ⟨id, hid⟩
      obtain ⟨i, stack, image, p, hcreatable, -⟩ := (hok id).1 hid
      exact ⟨i, stack, image, p, hcreatable⟩
    · rintro ⟨i, stack, image, p, hcreatable⟩
      exact ⟨_, (hok _).2 ⟨i, stack, image, p, hcreatable, rfl⟩⟩
  · have hnext := (hok _).2 ⟨i, stack, image, p, hcreatable, rfl⟩
    cases hid.symm.trans hnext
    have hcreated := hsound.created hlayout (hfresh.numbered_run ops) hcreatable hnext
    rwa [hconfig] at hcreated

/-- A creation whose pointer gets the address of the function of its name. -/
theorem verdict_run_pointer : ∃ (t : EnvTable 2) (id : EnvId), new 2 (.kernelSpace ⟨8, 16⟩) = .ok t ∧
    ({} : SparseSpace).limit = none ∧
      let binder : Binder := { exports := [⟨"f", 0x1234⟩] }
      let made := create binder Program.pointerExecutable .user ⟨t, ({} : SparseSpace)⟩
      made.outcome = .ok id ∧ made.state.space.readWord 0x10010 = .ok 0x1234 := by
  let binary := Program.pointerExecutable
  obtain ⟨image, ps, p, hok, hp, hitems, -, hcandidates, hname⟩ := Program.exists_pointerExecutable
  obtain ⟨hparse, hplan⟩ := Program.examine_eq_ok_iff.1 hok
  obtain ⟨image', table, hparse', hfound⟩ := Program.pointersOf_eq_ok_iff.1 hp
  cases hparse.symm.trans hparse'
  obtain ⟨t, h⟩ : ∃ t : EnvTable 2, new 2 (.kernelSpace ⟨8, 16⟩) = .ok t := ⟨_, rfl⟩
  obtain ⟨stack, hstack, -⟩ := (fresh_of_new h).sound.exists_stackOf (by cases h; rfl) 0
  have hcreatable : Creatable stackAreaTop stackSize t {} binary 0 stack image p := by
    refine ⟨by cases h; rfl, hstack, hparse, ⟨ps, hplan⟩, ⟨table, hfound⟩, fun c hc a ha => ?_⟩
    rw [hcandidates, List.mem_singleton] at hc
    subst hc
    rw [Backed, hitems]
    exact .inr (.inr ⟨_, List.mem_cons_self, Program.meets_pointerExecutable ha⟩)
  have hverdict := verdict_run h [] { exports := [⟨"f", 0x1234⟩] } binary .user (s := {}) rfl
  obtain ⟨id, hid⟩ := hverdict.ok_iff.2 ⟨_, _, _, _, hcreatable⟩
  refine ⟨t, id, h, rfl, hid, ?_⟩
  have hreads := (hverdict.created id hid _ _ _ _ hcreatable).reads [] _ [] hcandidates
    fun _ hd => absurd hd List.not_mem_nil
  rw [hcandidates, List.map_singleton] at hname
  rwa [Program.target, List.singleton_inj.1 hname] at hreads

/-- The first section of a name decides, even if it is not as it should be and another one is. -/
theorem first_sections_decide : ∃ t : EnvTable 2, new 2 (.kernelSpace ⟨8, 16⟩) = .ok t ∧ t.freeHead = some 0 ∧
    (∃ image table, Program.HasSections Program.wrappingExecutable image table ∧
      (create {} Program.wrappingExecutable .user (⟨t, {}⟩ : World 2 SparseSpace)).outcome =
        .error (.bind (.malformed (.addressOverflow 0xfffffffffffffff8 16)))) ∧
    ∃ image table, Program.HasSections Program.outsideExecutable image table ∧
      (create {} Program.outsideExecutable .user (⟨t, {}⟩ : World 2 SparseSpace)).outcome =
        .error (.bind (.malformed (.outOfBounds ⟨512, 16, 328⟩))) := by
  obtain ⟨t, h⟩ : ∃ t : EnvTable 2, new 2 (.kernelSpace ⟨8, 16⟩) = .ok t := ⟨_, rfl⟩
  have hsound := (fresh_of_new h).sound
  have hhead : t.freeHead = some 0 := by cases h; rfl
  have hlayout : t.config.layout = .shared stackAreaTop stackSize := by cases h; rfl
  obtain ⟨stack, hstack, -⟩ := hsound.exists_stackOf hlayout 0
  have hdenied : ∀ {binary e}, Hindrance {} stack binary e →
      (create {} binary .user (⟨t, {}⟩ : World 2 SparseSpace)).outcome = .error e := fun hindrance =>
    (hsound.create_eq_error_iff hlayout rfl).2 (.hindered hhead hstack hindrance)
  obtain ⟨image, hsections, hreason⟩ := Program.unbindable_wrapping
  obtain ⟨image', hsections', hreason'⟩ := Program.unbindable_outside
  obtain ⟨ps, hplan⟩ := hsections.planned
  obtain ⟨ps', hplan'⟩ := hsections'.planned
  exact ⟨t, h, hhead, ⟨image, _, hsections, hdenied (.sections hsections.parsed hplan hreason)⟩,
    image', _, hsections', hdenied (.sections hsections'.parsed hplan' hreason')⟩

end EnvTable

end Env

end EnvKernel
