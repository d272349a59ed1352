import EnvKernel.Proofs.Table.Furnish

/-!
Creations that share a memory. What a program leaves uninitialised is not cleared by anybody: new pages are
zero, and pages that are there stay as they are. So `uninitialized_run` says that such a byte is what it was
before, and zero if no image that was loaded there earlier decided about it. `uninitialized_stale` shows that
this is all there is to say.
-/

namespace EnvKernel.Env

open Elf Memory

variable {n : Nat}

/-- Something to do with a world: an environment is created, or something is done with the table alone. -/
inductive Turn : Type 1 where
  | create (binder : Binder) (binary : Bytes) (kind : Kind)
  | table (op : Op)

namespace World

/-- The world after a turn, however that ended. -/
def after (w : World n SparseSpace) : Turn → World n SparseSpace
  | .create binder binary kind => (Env.create binder binary kind w).state
  | .table op => { w with envs := w.envs.after op }

/-- The world after some turns. -/
def run (w : World n SparseSpace) (turns : List Turn) : World n SparseSpace := turns.foldl after w

end World

/-- Some of the turns is a creation from an image that decides about the byte at `a`. -/
def Touched (turns : List Turn) (a : UInt64) : Prop :=
  ∃ binder binary kind, Turn.create binder binary kind ∈ turns ∧ Touches binary a

open EnvTable

variable {w : World n SparseSpace}

theorem sound_after (h : Sound w.envs) (turn : Turn) : Sound (w.after turn).envs := by
  cases turn with
  | create binder binary kind => exact h.run [.create w.space binder binary kind]
  | table op => exact h.run [op]

theorem sound_run (h : Sound w.envs) (turns : List Turn) : Sound (w.run turns).envs := by
  induction turns generalizing w with
  | nil => exact h
  | cons turn turns ih => exact ih (sound_after h turn)

/-- A turn leaves alone what it does not touch. -/
theorem frame_after (h : Sound w.envs) (turn : Turn) :
    Flat.Frame (Touched [turn]) (byte? w.space) (byte? (w.after turn).space) := by
  cases turn with
  | create binder binary kind =>
    refine (h.frame_create binder binary kind w.space).mono fun a ha => ?_
    exact ⟨binder, binary, kind, List.mem_singleton_self _, ha⟩
  | table op => exact .refl _ _

/-- A run leaves alone what none of its turns touches. -/
theorem frame_run (h : Sound w.envs) (turns : List Turn) :
    Flat.Frame (Touched turns) (byte? w.space) (byte? (w.run turns).space) := by
  induction turns generalizing w with
  | nil => exact .refl _ _
  | cons turn turns ih =>
    have hfirst := (frame_after h turn).mono (Q := Touched (turn :: turns)) ?_
    have hrest := (ih (sound_after h turn)).mono (Q := Touched (turn :: turns)) ?_
    · exact hfirst.trans hrest
    · rintro a ⟨binder, binary, kind, hmem, ha⟩
      exact ⟨binder, binary, kind, List.mem_cons_of_mem _ hmem, ha⟩
    · rintro a ⟨binder, binary, kind, hmem, ha⟩
      rw [List.mem_singleton] at hmem
      exact ⟨binder, binary, kind, hmem ▸ List.mem_cons_self, ha⟩

/-- The address belongs to memory of the piece for which the file has no bytes. -/
def Uninitialized (ph : ProgramHeader) (a : UInt64) : Prop :=
  ph.paddr.toNat + ph.filesz.toNat ≤ a.toNat ∧ a.toNat < ph.paddr.toNat + ph.memsz.toNat

instance (ph : ProgramHeader) (a : UInt64) : Decidable (Uninitialized ph a) :=
  inferInstanceAs (Decidable (_ ∧ _))

/-- The memory of pieces to be loaded is there after a creation that succeeded. -/
theorem Furnished.isSome_uninitialized {binder : Binder} {binary : Bytes} {stack : Range} {m m' : Flat}
    (h : Furnished binder binary stack m m') : ∃ image, Image.parse binary = .ok image ∧
      ∀ ph ∈ image.programHeaders, ph.load = true → ∀ a, Uninitialized ph a → (m' a).isSome = true := by
  obtain ⟨parsed, found, loaded, present, rfl⟩ := h
  refine ⟨_, parsed, ?_⟩
  rintro ph hph hload a ⟨hle, hlt⟩
  have hsize : ph.memsz.toNat ≤ (Program.Item.ofSegment ph).size := Nat.le_max_left _ _
  have hitem := Program.ofSegment_mem_items hph hload (by omega)
  have hmeets : (Program.Item.ofSegment ph).Meets a :=
    ⟨a.toNat, Nat.le_of_add_right_le hle, Nat.lt_of_lt_of_le hlt (Nat.add_le_add_left hsize _), rfl⟩
  rw [Program.isSome_bound present, loaded.mapped_iff]
  exact .inr ⟨_, hitem, hmeets⟩

/-! ### Images of one piece -/

/-- An image that is accepted, of one piece to be loaded and without pointers. -/
inductive Plain (binary : Bytes) (ph : ProgramHeader) : Prop where
  | intro {image : Image} {ps : List Program.Placement} {p : Program.Pointers}
      (examined : Program.examine binary = .ok (image, ps)) (headers_eq : image.programHeaders = [ph])
      (items_eq : Program.items image = [.ofSegment ph]) (found : Program.pointersOf binary = .ok p)
      (candidates_eq : p.candidates = []) : Plain binary ph

variable {t : EnvTable n} {i : Fin n} {s : SparseSpace} {binary : Bytes} {ph : ProgramHeader} {a : UInt64}

/-- A plain image decides only about the bytes that the file has for its piece. -/
theorem Plain.supplies (h : Plain binary ph) (ha : Touches binary a) :
    (Program.Item.ofSegment ph).Supplies a := by
  obtain ⟨examined, -, items_eq, found, candidates_eq⟩ := h
  cases ha with
  | item parsed mem supplies =>
    have hparse := (Program.examine_eq_ok_iff.1 examined).1
    rw [parsed] at hparse
    cases hparse
    rw [items_eq, List.mem_singleton] at mem
    rwa [← mem]
  | pointer found' mem covers =>
    rw [found] at found'
    cases found'
    rw [candidates_eq] at mem
    cases mem

/-- Once a plain image is loaded, memory holds the bytes that the file has for its piece. -/
theorem Plain.byte_eq (h : Plain binary ph) {binder : Binder} {stack : Range} {m m' : Flat}
    (hm : Furnished binder binary stack m m') (ha : (Program.Item.ofSegment ph).Supplies a) :
    m' a = (Program.Item.ofSegment ph).byte? binary a := by
  obtain ⟨examined, -, items_eq, found, candidates_eq⟩ := h
  obtain ⟨parsed, found', loaded, -, rfl⟩ := hm
  have hparse := (Program.examine_eq_ok_iff.1 examined).1
  rw [parsed] at hparse
  cases hparse
  rw [Program.pointersOf_eq_ok_iff.2 ⟨_, _, parsed, found'⟩] at found
  cases found
  rw [items_eq] at loaded
  obtain ⟨b, hb, hm⟩ := loaded.supplied a (.ofSegment ph) (by simp [Program.lastSupplier?, ha])
  rw [candidates_eq, hb]
  exact hm

/-- With a free slot and memory without a limit, an environment is created for any plain image. -/
theorem Plain.create_eq_ok (h : Plain binary ph) (ht : Sound t) (hbounded : t.config.layout.Bounded)
    (hhead : t.freeHead = some i) (hlimit : s.limit = none) (binder : Binder) (kind : Kind) :
    (create binder binary kind ⟨t, s⟩).outcome = .ok (t[i].id.next i.val) := by
  obtain ⟨examined, -, -, found, candidates_eq⟩ := h
  exact ht.create_of_unlimited hbounded hhead hlimit examined found (by simp [candidates_eq]) binder kind

/-- The same with two images, one after the other, on a table of two free slots. -/
theorem exists_create_twice {binary' : Bytes} {ph' : ProgramHeader} (h : Plain binary ph)
    (h' : Plain binary' ph') : ∃ (t : EnvTable 2) (id id' : EnvId),
      EnvTable.new 2 (.kernelSpace ⟨8, 16⟩) = .ok t ∧
      (create {} binary .user (⟨t, {}⟩ : World 2 SparseSpace)).outcome = .ok id ∧
      (create {} binary' .user (World.run ⟨t, {}⟩ [.create {} binary .user])).outcome = .ok id' := by
  obtain ⟨t, ht⟩ : ∃ t : EnvTable 2, EnvTable.new 2 (.kernelSpace ⟨8, 16⟩) = .ok t := ⟨_, rfl⟩
  have hsound := (fresh_of_new ht).sound
  have hhead : t.freeHead = some 0 := by cases ht; rfl
  have hlink : t.link 0 = some 1 := by cases ht; rfl
  have hbounded : t.config.layout.Bounded := by cases ht; trivial
  have hfirst := h.create_eq_ok hsound hbounded hhead (s := {}) rfl {} .user
  obtain ⟨stack, -, hlimit⟩ := hsound.furnished_create hfirst
  obtain ⟨rsp, u, -, hu, hend⟩ := hsound.create_cases {} hhead binary .user ({} : SparseSpace)
  obtain ⟨-, -, hnext, -, hconfig⟩ := hu.others
  rcases hend with ⟨-, henvs⟩ | ⟨how, hstop, -⟩ | ⟨e, herror, -⟩
  · have hsound' := sound_after (w := ⟨t, {}⟩) hsound (.create {} binary .user)
    rw [World.after, henvs] at hsound'
    have hsecond := h'.create_eq_ok hsound' (hconfig ▸ hbounded) (hnext.trans hlink) hlimit {} .user
    rw [← henvs] at hsecond
    exact ⟨t, _, _, ht, hfirst, hsecond⟩
  · cases hfirst.symm.trans hstop
  · cases hfirst.symm.trans herror

theorem plain_smallExecutable (length : Nat) (h : length = 0 ∨ length = 16) :
    Plain (Program.smallExecutable length 0) ⟨true, 0, 0x10000, 0x10000, UInt64.ofNat length, 16⟩ := by
  have hexamine : ((Program.examine (Program.smallExecutable length 0)).toOption.map fun r =>
      (r.1.programHeaders, Program.items r.1)) =
        some ([⟨true, 0, 0x10000, 0x10000, UInt64.ofNat length, 16⟩], [⟨0x10000, 16, 0, length⟩]) := by
    rcases h with rfl | rfl <;> decide +kernel
  have hpointers : ((Program.pointersOf (Program.smallExecutable length 0)).toOption.map
      (·.candidates)) = some [] := by
    rcases h with rfl | rfl <;> decide +kernel
  obtain ⟨⟨image, ps⟩, hok, heq⟩ := Reading.exists_of_toOption hexamine
  obtain ⟨p, hfound, hnone⟩ := Reading.exists_of_toOption hpointers
  have hitem : Program.Item.ofSegment ⟨true, 0, 0x10000, 0x10000, UInt64.ofNat length, 16⟩ =
      ⟨0x10000, 16, 0, length⟩ := by
    rcases h with rfl | rfl <;> rfl
  exact .intro hok (congrArg Prod.fst heq) ((congrArg Prod.snd heq).trans (by rw [hitem])) hfound hnone

/-! ### Uninitialised memory -/

/-- Whatever was created in a memory before, after a creation that succeeds a byte that the new image leaves
uninitialised is the one that was there, or zero on a new page. So it is what it was in the beginning if no
image decided about it in the meantime. -/
theorem uninitialized_run {config : Config} {t : EnvTable n} (h : EnvTable.new n config = .ok t)
    (s : SparseSpace) (turns : List Turn) {binder : Binder} {binary : Bytes} {kind : Kind} {id : EnvId}
    (hok : (create binder binary kind (World.run ⟨t, s⟩ turns)).outcome = .ok id) :
    let before := World.run ⟨t, s⟩ turns
    let made := create binder binary kind before
    ∃ image, Image.parse binary = .ok image ∧
      ∀ ph ∈ image.programHeaders, ph.load = true → ∀ a, Uninitialized ph a → ¬ Touches binary a →
        byte? made.state.space a = some ((byte? before.space a).getD 0) ∧
          (¬ Touched turns a → byte? made.state.space a = some ((byte? s a).getD 0)) := by
  have hsound : Sound (World.run ⟨t, s⟩ turns).envs := sound_run (fresh_of_new h).sound turns
  obtain ⟨stack, hfurnished, -⟩ := hsound.furnished_create hok
  obtain ⟨image, hparse, hthere⟩ := hfurnished.isSome_uninitialized
  refine ⟨image, hparse, fun ph hph hload a ha hout => ?_⟩
  have hlast := hsound.frame_create binder binary kind (World.run ⟨t, s⟩ turns).space
  have hmapped := hthere ph hph hload a ha
  refine ⟨hlast.eq_some hout hmapped, fun hnever => ?_⟩
  have hfirst := frame_run (w := ⟨t, s⟩) (fresh_of_new h).sound turns
  have hboth : Flat.Frame (fun a => Touched turns a ∨ Touches binary a) (byte? s) _ :=
    (hfirst.mono fun _ => .inl).trans (hlast.mono fun _ => .inr)
  exact hboth.eq_some (by simp [hnever, hout]) hmapped

/-- A second program of which the file has no byte, in the memory of a first one. -/
theorem uninitialized_run_second : ∃ (t : EnvTable 2) (id : EnvId),
    EnvTable.new 2 (.kernelSpace ⟨8, 16⟩) = .ok t ∧
    let before := World.run ⟨t, {}⟩ [.create {} (Program.smallExecutable 16 0) .user]
    let made := create {} (Program.smallExecutable 0 0) .user before
    made.outcome = .ok id ∧ ∃ image, Image.parse (Program.smallExecutable 0 0) = .ok image ∧
      ∀ ph ∈ image.programHeaders, ph.load = true → ∀ a, Uninitialized ph a →
        ¬ Touches (Program.smallExecutable 0 0) a →
          byte? made.state.space a = some ((byte? before.space a).getD 0) ∧
            (¬ Touched [.create {} (Program.smallExecutable 16 0) .user] a →
              byte? made.state.space a = some ((byte? ({} : SparseSpace) a).getD 0)) := by
  obtain ⟨t, -, id, ht, -, hok⟩ :=
    exists_create_twice (plain_smallExecutable 16 (.inr rfl)) (plain_smallExecutable 0 (.inl rfl))
  exact ⟨t, id, ht, hok, uninitialized_run ht {} _ hok⟩

/-- That program finds the first byte of the other one in memory that it leaves uninitialised. -/
theorem uninitialized_stale : ∃ (t : EnvTable 2) (id id' : EnvId),
    EnvTable.new 2 (.kernelSpace ⟨8, 16⟩) = .ok t ∧
    let first := create {} (Program.smallExecutable 16 0) .user (⟨t, {}⟩ : World 2 SparseSpace)
    let second := create {} (Program.smallExecutable 0 0) .user first.state
    first.outcome = .ok id ∧ second.outcome = .ok id' ∧
      (∃ image, Image.parse (Program.smallExecutable 0 0) = .ok image ∧
        ∃ ph ∈ image.programHeaders, ph.load = true ∧ Uninitialized ph 0x10000) ∧
      ¬ Touches (Program.smallExecutable 0 0) 0x10000 ∧ byte? second.state.space 0x10000 = some 0x7f := by
  have hplain := plain_smallExecutable 16 (.inr rfl)
  have hplain' := plain_smallExecutable 0 (.inl rfl)
  obtain ⟨t, id, id', ht, hfirst, hsecond⟩ := exists_create_twice hplain hplain'
  have hsound := (fresh_of_new ht).sound
  obtain ⟨stack, hfurnished, -⟩ := hsound.furnished_create hfirst
  have hbyte := hplain.byte_eq hfurnished (a := 0x10000) (by decide)
  have hbare : ¬ Touches (Program.smallExecutable 0 0) 0x10000 := fun htouches =>
    absurd (hplain'.supplies htouches) (by decide)
  refine ⟨t, id, id', ht, hfirst, hsecond, ?_, hbare, ?_⟩
  · obtain ⟨examined, headers_eq, -, -, -⟩ := hplain'
    refine ⟨_, (Program.examine_eq_ok_iff.1 examined).1, _, headers_eq ▸ List.mem_singleton_self _, rfl, ?_⟩
    decide
  · have hsound' := sound_after (w := ⟨t, {}⟩) hsound (.create {} (Program.smallExecutable 16 0) .user)
    have hframe := hsound'.frame_create {} (Program.smallExecutable 0 0) .user
      (create {} (Program.smallExecutable 16 0) .user (⟨t, {}⟩ : World 2 SparseSpace)).state.space
    have hfile : (Program.Item.ofSegment ⟨true, 0, 0x10000, 0x10000, 16, 16⟩).byte?
        (Program.smallExecutable 16 0) 0x10000 = some 0x7f := by decide +kernel
    rcases hframe 0x10000 hbare with heq | ⟨hnone, -⟩
    · exact heq.trans (hbyte.trans hfile)
    · rw [hbyte.trans hfile] at hnone
      cases hnone

end EnvKernel.Env
