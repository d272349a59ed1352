import EnvKernel.Proofs.Program.Unbindable
import EnvKernel.Proofs.Table.Furnish

/-!
Why memory is not furnished. If it has no limit, all that can go wrong is in the image or in its
pointers, which may lie where no memory is by then: `furnish_eq_error_iff` says that the error is that of
the first `Hindrance`, and `furnish_eq_ok_iff` that without one memory is furnished. What it then holds
of the stack and of the pointers is in `Furnished.isSome_stack` and `Furnished.readWord_pointer`.
-/

namespace EnvKernel

namespace Program

open Elf Memory

variable {binder : Binder} {names : Bytes} {before after : List Symbol} {c : Symbol} {m : Flat}

/-- What is bound last decides. -/
theorem bound_append (binder : Binder) (names : Bytes) (m : Flat) (before after : List Symbol) :
    bound binder names m (before ++ after) = bound binder names (bound binder names m before) after :=
  List.foldl_append

/-- A pointer that no later one overlaps holds the address of its function. -/
theorem bound_of_covers {a : UInt64} (hafter : ∀ d ∈ after, ¬ Covers d a) (hc : Covers c a) :
    bound binder names m (before ++ c :: after) a =
      some ((Word.toBytes (target binder names c)).getD (a.toNat - c.value.toNat) 0) := by
  have hsize := Word.size_toBytes (target binder names c)
  obtain ⟨hle, hlt⟩ := hc
  rw [bound_append, ← List.singleton_append, bound_append, bound_of_not_covers hafter]
  refine (if_pos ⟨hle, by rwa [hsize]⟩).trans ?_
  rw [Array.getElem?_eq_getElem (by omega), Array.getD, dif_pos (by omega)]
  rfl

end Program

namespace Env

open Elf Memory
open Program (Covers)

variable {binder : Binder} {binary : Bytes} {env : Environment} {stack : Range} {s : SparseSpace}
  {e : EnvError} {image : Image} {p : Program.Pointers}

/-! ### What is there in the end -/

/-- The whole stack is there. -/
theorem Furnished.isSome_stack {m m' : Flat} {a : UInt64} (h : Furnished binder binary stack m m')
    (ha : stack.Contains a) : (m' a).isSome = true := by
  obtain ⟨-, -, loaded, present, rfl⟩ := h
  have hmeets : stack.Meets a :=
    Range.meets_of_mem (UInt64.le_iff_toNat_le.2 ha.1) (UInt64.lt_iff_toNat_lt.2 ha.2)
  rw [Program.isSome_bound present, loaded.mapped_iff, Flat.isSome_map]
  exact .inl (.inr hmeets)

/-- A pointer that no later one overlaps leads to the function of its name. -/
theorem Furnished.readWord_pointer {m : Flat} {before after : List Symbol} {c : Symbol}
    (h : Furnished binder binary stack m (byte? s)) (hp : Program.pointersOf binary = .ok p)
    (hsplit : p.candidates = before ++ c :: after)
    (hafter : ∀ d ∈ after, ∀ a, Covers c a → ¬ Covers d a) :
    s.readWord c.value = .ok (Program.target binder p.names c) := by
  obtain ⟨parsed, found, -, -, bytes⟩ := h
  cases hp.symm.trans (Program.pointersOf_eq_ok_iff.2 ⟨_, _, parsed, found⟩)
  have hc : c ∈ p.candidates := hsplit ▸ List.mem_append_right _ List.mem_cons_self
  have hfit : c.value.toNat + 8 ≤ 0x10000000000000000 :=
    Nat.le_trans (Program.mem_candidates_iff.1 hc).2.2.2 (Nat.le_of_lt p.data.stop.toNat_lt)
  refine SparseSpace.readWord_of_holds (fun a hle hlt => ?_) hfit
  rw [Word.size_toBytes] at hlt
  rw [bytes, hsplit]
  exact Program.bound_of_covers (fun d hd => hafter d hd a ⟨hle, hlt⟩) ⟨hle, hlt⟩

/-! ### What can be in the way -/

/-- Memory `s` can be furnished with the stack and the image in `binary`: the image is accepted and has the
pointers `p`, which lie in memory that is there by then. -/
structure Furnishable (s : SparseSpace) (stack : Range) (binary : Bytes) (image : Image)
    (p : Program.Pointers) : Prop where
  parsed : Image.parse binary = .ok image
  planned : ∃ ps, Program.plan image = .ok ps
  found : ∃ table, p.Found image table
  backed : ∀ c ∈ p.candidates, ∀ a, Covers c a → Backed s stack image a

/-- Why memory `s` cannot be furnished with the stack and the image in `binary`. -/
inductive Hindrance (s : SparseSpace) (stack : Range) (binary : Bytes) : EnvError → Prop where
  | parse {e : ElfError} (refused : Image.parse binary = .error e) :
      Hindrance s stack binary (.load (.malformed e))
  | plan {image : Image} {e : ElfError} (parsed : Image.parse binary = .ok image)
      (refused : Program.plan image = .error e) : Hindrance s stack binary (.load (.malformed e))
  | sections {image : Image} {ps : List Program.Placement} {e : BindError}
      (parsed : Image.parse binary = .ok image) (planned : Program.plan image = .ok ps)
      (reason : Program.Unbindable image e) : Hindrance s stack binary (.bind e)
  /-- A byte of a pointer is not there. It is the first of that pointer, which is the first of all. -/
  | pointer {image : Image} {ps : List Program.Placement} {table : Bytes} {p : Program.Pointers}
      {before after : List Symbol} {c : Symbol} {a : UInt64} (parsed : Image.parse binary = .ok image)
      (planned : Program.plan image = .ok ps) (found : p.Found image table)
      (candidates_eq : p.candidates = before ++ c :: after)
      (before_backed : ∀ b ∈ before, ∀ a, Covers b a → Backed s stack image a) (covers : Covers c a)
      (missing : ¬ Backed s stack image a)
      (first : ∀ b, Covers c b → b.toNat < a.toNat → Backed s stack image b) :
      Hindrance s stack binary (.bind (.memory (.unmapped a)))

theorem hindrance_iff_of_refused {err : ElfError} (h : Program.examine binary = .error err) :
    Hindrance s stack binary e ↔ e = .load (.malformed err) := by
  have haccepted : ∀ {image ps}, Image.parse binary = .ok image → Program.plan image ≠ .ok ps := by
    intro image ps hparse hplan
    rw [Program.examine_eq_ok_iff.2 ⟨hparse, hplan⟩] at h
    cases h
  constructor
  · intro hindrance
    cases hindrance with
    | parse refused =>
      cases h.symm.trans (Program.examine_eq_error_iff.2 (.inl refused))
      rfl
    | plan parsed refused =>
      cases h.symm.trans (Program.examine_eq_error_iff.2 (.inr ⟨_, parsed, refused⟩))
      rfl
    | sections parsed planned | pointer parsed planned => exact absurd planned (haccepted parsed)
  · rintro rfl
    rcases Program.examine_eq_error_iff.1 h with hparse | ⟨image, hparse, hplan⟩
    · exact .parse hparse
    · exact .plan hparse hplan

/-- With an image that is accepted, it is binding that can fail. -/
theorem hindrance_iff_of_accepted (binder : Binder) {ps : List Program.Placement} {u : SparseSpace}
    (h : Program.examine binary = .ok (image, ps))
    (hbacked : ∀ a, (byte? u a).isSome = true ↔ Backed s stack image a) : Hindrance s stack binary e ↔
      ∃ err, (Program.bind binder binary u).outcome = .error err ∧ e = .bind err := by
  obtain ⟨hparse, hplan⟩ := Program.examine_eq_ok_iff.1 h
  simp only [Program.bind_eq_error_iff, Program.pointersOf_eq_error_iff hparse]
  constructor
  · intro hindrance
    cases hindrance with
    | parse refused => cases hparse.symm.trans refused
    | plan parsed refused =>
      cases hparse.symm.trans parsed
      cases hplan.symm.trans refused
    | sections parsed planned reason =>
      cases hparse.symm.trans parsed
      exact ⟨_, .inl reason, rfl⟩
    | @pointer image' ps' table p before after c a parsed planned found candidates_eq before_backed covers
        missing first =>
      cases hparse.symm.trans parsed
      have hp := Program.pointersOf_eq_ok_iff.2 ⟨_, _, parsed, found⟩
      have hpresent : ∀ b ∈ before, Program.Present (byte? u) b := fun b hb a ha =>
        (hbacked a).2 (before_backed b hb a ha)
      have hmissing : Program.FirstMissing (byte? u) c a := by
        refine ⟨covers, ?_, fun b hb hlt => (hbacked b).2 (first b hb hlt)⟩
        rwa [← Option.not_isSome_iff_eq_none, hbacked]
      exact ⟨_, .inr ⟨p, before, c, after, a, hp, candidates_eq, hpresent, hmissing, rfl⟩, rfl⟩
  · rintro ⟨err, hreason | ⟨p, before, c, after, a, hp, hsplit, hpresent, hmissing, rfl⟩, rfl⟩
    · exact .sections hparse hplan hreason
    · obtain ⟨image', table, hparse', hfound⟩ := Program.pointersOf_eq_ok_iff.1 hp
      cases hparse.symm.trans hparse'
      refine .pointer hparse hplan hfound hsplit (fun b hb a ha => (hbacked a).1 (hpresent b hb a ha))
        hmissing.covers ?_ fun b hb hlt => (hbacked b).1 (hmissing.before b hb hlt)
      rw [← hbacked, hmissing.missing]
      nofun

section Unlimited

variable (hstack : stack.start ≤ stack.stop) (hlimit : s.limit = none)

include hstack hlimit

/-- Memory without a limit is furnished exactly if it can be. -/
theorem furnish_eq_ok_iff : (furnish binder binary env stack s).outcome = .ok () ↔
    ∃ image p, Furnishable s stack binary image p := by
  constructor
  · intro hok
    cases hexamine : Program.examine binary with
    | error e =>
      rw [furnish_of_refused hstack hlimit hexamine] at hok
      cases hok
    | ok asked =>
      obtain ⟨image, ps⟩ := asked
      obtain ⟨u, hbacked, hend⟩ := furnish_of_accepted hstack hlimit hexamine binder env
      rw [hend] at hok
      have hbound := (Program.bound_bind binder binary u).1
      generalize (Program.bind binder binary u).outcome = outcome at hok hbound
      generalize (Program.bind binder binary u).state = u' at hbound
      cases hbound with
      | refused | partly => cases hok
      | all parsed found present =>
        obtain ⟨hparse, hplan⟩ := Program.examine_eq_ok_iff.1 hexamine
        cases hparse.symm.trans parsed
        exact ⟨_, _, parsed, ⟨ps, hplan⟩, ⟨_, found⟩, fun c hc a ha => (hbacked a).1 (present c hc a ha)⟩
  · rintro ⟨image, p, parsed, ⟨ps, planned⟩, ⟨table, found⟩, backed⟩
    have hexamine := Program.examine_eq_ok_iff.2 ⟨parsed, planned⟩
    obtain ⟨u, hbacked, hend⟩ := furnish_of_accepted hstack hlimit hexamine binder env
    have hp := Program.pointersOf_eq_ok_iff.2 ⟨image, table, parsed, found⟩
    rcases Program.bind_cases hp binder u with ⟨-, s', said, hbind, -⟩ |
      ⟨before, c, after, a, s', said, hsplit, -, hmissing, -⟩
    · rw [hend, hbind]
    · have hc : c ∈ p.candidates := hsplit ▸ List.mem_append_right _ List.mem_cons_self
      have hpresent : Program.Present (byte? u) c := fun a ha => (hbacked a).2 (backed c hc a ha)
      exact absurd hpresent hmissing.not_present

/-- The error is the first hindrance. -/
theorem furnish_eq_error_iff : (furnish binder binary env stack s).outcome = .error e ↔
    Hindrance s stack binary e := by
  cases hexamine : Program.examine binary with
  | error err =>
    rw [furnish_of_refused hstack hlimit hexamine, hindrance_iff_of_refused hexamine]
    simp [eq_comm]
  | ok asked =>
    obtain ⟨u, hbacked, hend⟩ := furnish_of_accepted hstack hlimit hexamine binder env
    rw [hend, hindrance_iff_of_accepted binder hexamine hbacked]
    cases (Program.bind binder binary u).outcome <;> simp [eq_comm]

end Unlimited

end Env

end EnvKernel
