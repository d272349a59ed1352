import EnvKernel.Proofs.Program.Bind
import EnvKernel.Proofs.Program.Load
import EnvKernel.Proofs.Table.Returns

/-!
Creations in a sparse memory. What a creation does to memory is to furnish it for one environment, if it
gets that far. `frame_furnish` says what that leaves alone, `furnish_cases` what is there if all went
well, and `Sound.create_of_unlimited` that it goes well where memory has no limit.
-/

namespace EnvKernel.Env

open Elf Memory

variable {n : Nat} {binder : Binder} {binary : Bytes} {kind : Kind} {env : Environment} {stack : Range}
  {s : SparseSpace} {t : EnvTable n} {i : Fin n}

/-- The image in `binary` decides about the byte at `a`: the file has one for it, or a pointer is there that
is bound. -/
inductive Touches (binary : Bytes) (a : UInt64) : Prop where
  | item {image : Image} {item : Program.Item} (parsed : Image.parse binary = .ok image)
      (mem : item ∈ Program.items image) (supplies : item.Supplies a) : Touches binary a
  | pointer {p : Program.Pointers} {c : Symbol} (found : Program.pointersOf binary = .ok p)
      (mem : c ∈ p.candidates) (covers : Program.Covers c a) : Touches binary a

/-- Furnishing leaves alone what the image does not decide about. -/
theorem frame_furnish (binder : Binder) (binary : Bytes) (env : Environment) (stack : Range)
    (s : SparseSpace) :
    Flat.Frame (Touches binary) (byte? s) (byte? (furnish binder binary env stack s).state) := by
  have hload : ∀ s, Flat.Frame (Touches binary) (byte? s)
      (byte? (Program.load env binary s).state) := fun s => by
    refine (Program.frame_load binary env s).mono ?_
    rintro a ⟨image, hparse, item, hitem, ha⟩
    exact .item hparse hitem ha
  have hbind : ∀ s : SparseSpace, Flat.Frame (Touches binary) (byte? s)
      (byte? (Program.bind binder binary s).state) := fun s a ha =>
    .inl (Program.byte?_bind fun p hp c hc hcovers => ha (.pointer hp hc hcovers))
  let P := fun s' : SparseSpace => Flat.Frame (Touches binary) (byte? s) (byte? s')
  have hmap : P (AddressSpace.map stack s).state := SparseSpace.frame_mapping _ s stack
  refine Action.bind_keeps (P := P) ?_ fun _ _ => ?_
  · rwa [Action.state_mapError]
  rw [Action.state_mapError]
  refine Action.bind_keeps (P := P) ?_ fun _ _ => ?_
  · rw [Action.state_mapError]
    exact hmap.trans (hload _)
  rw [Action.state_mapError]
  refine Action.bind_keeps (P := P) ?_ fun _ _ => ?_
  all_goals
    simp only [Action.state_mapError, Action.pure_apply]
    exact (hmap.trans (hload _)).trans (hbind _)

/-- Memory `m'` is `m` furnished: the stack is mapped, the image is loaded, and all pointers are bound. -/
inductive Furnished (binder : Binder) (binary : Bytes) (stack : Range) (m m' : Flat) : Prop where
  | intro {image : Image} {table : Bytes} {p : Program.Pointers} {middle : Flat}
      (parsed : Image.parse binary = .ok image) (found : p.Found image table)
      (loaded : Program.Loaded binary (Program.items image) (m.map stack) middle)
      (present : ∀ c ∈ p.candidates, Program.Present middle c)
      (bytes : m' = Program.bound binder p.names middle p.candidates) :
      Furnished binder binary stack m m'

/-- Memory is furnished, or there is an error. -/
theorem furnish_cases (hstack : stack.start ≤ stack.stop) (binder : Binder) (binary : Bytes)
    (env : Environment) (s : SparseSpace) :
    let done := furnish binder binary env stack s
    (done.outcome = .ok () ∧ done.state.limit = s.limit ∧
      Furnished binder binary stack (byte? s) (byte? done.state)) ∨ ∃ e, done.outcome = .error e := by
  rcases s.map_cases hstack with ⟨s₁, hmap, hlimit₁, hbytes₁⟩ | ⟨page, s₁, hmap, -⟩
  swap
  · exact .inr ⟨_, by
      rw [furnish, Action.bind_of_error (Action.mapError_of_error _ (SparseSpace.mapping_of_error hmap))]⟩
  rw [furnish, Action.bind_of_ok (Action.mapError_of_ok _ (SparseSpace.mapping_of_ok hmap))]
  cases hexamine : Program.examine binary with
  | error e =>
    have hload := Action.mapError_of_error EnvError.load (Program.load_of_refused hexamine env s₁)
    exact .inr ⟨_, by rw [Action.bind_of_error hload]⟩
  | ok asked =>
    rcases Program.load_cases hexamine env s₁ with ⟨s₂, hload, hlimit₂, hloaded⟩ |
      ⟨-, -, -, page, s₂, -, -, hload, -⟩
    swap
    · exact .inr ⟨_, by rw [Action.bind_of_error (Action.mapError_of_error _ hload)]⟩
    rw [Action.bind_of_ok (Action.mapError_of_ok EnvError.load hload)]
    obtain ⟨hbound, hlimit₃⟩ := Program.bound_bind binder binary s₂
    rcases hbind : Program.bind binder binary s₂ with ⟨outcome, s₃, said⟩
    simp only [hbind] at hbound hlimit₃
    cases hbound with
    | refused =>
      exact .inr ⟨_, by rw [Action.bind_of_error (Action.mapError_of_error _ hbind)]⟩
    | partly =>
      exact .inr ⟨_, by rw [Action.bind_of_error (Action.mapError_of_error _ hbind)]⟩
    | @all image table p _ parsed found present bytes =>
      rw [Action.bind_of_ok (Action.mapError_of_ok _ hbind)]
      -- loading and binding each parse the file, and it is one image
      have hparse := (Program.examine_eq_ok_iff.1 hexamine).1
      rw [parsed] at hparse
      cases hparse
      rw [hbytes₁] at hloaded
      exact .inl ⟨rfl, hlimit₃.trans (hlimit₂.trans hlimit₁), .intro parsed found hloaded present bytes⟩

/-- The address is there in memory `s` once the stack is mapped and the image is loaded. -/
def Backed (s : SparseSpace) (stack : Range) (image : Image) (a : UInt64) : Prop :=
  s.isMapped a = true ∨ stack.Meets a ∨ ∃ item ∈ Program.items image, item.Meets a

/-- With an image that is refused, memory is not furnished. -/
theorem furnish_of_refused (hstack : stack.start ≤ stack.stop) (hlimit : s.limit = none) {e : ElfError}
    (hexamine : Program.examine binary = .error e) (binder : Binder) (env : Environment) :
    (furnish binder binary env stack s).outcome = .error (.load (.malformed e)) := by
  rcases s.map_cases hstack with ⟨s₁, hmap, -⟩ | ⟨page, s₁, -, hlimit₁, hrefused⟩
  swap
  · exact absurd hrefused.exhausted (SparseSpace.not_exhausted (hlimit₁.trans hlimit))
  have hload := Action.mapError_of_error EnvError.load (Program.load_of_refused hexamine env s₁)
  rw [furnish, Action.bind_of_ok (Action.mapError_of_ok _ (SparseSpace.mapping_of_ok hmap)),
    Action.bind_of_error hload]

/-- With an image that is accepted and memory without a limit, furnishing gets as far as binding and ends as
that does. -/
theorem furnish_of_accepted (hstack : stack.start ≤ stack.stop) (hlimit : s.limit = none) {image : Image}
    {ps : List Program.Placement} (hexamine : Program.examine binary = .ok (image, ps)) (binder : Binder)
    (env : Environment) : ∃ u : SparseSpace, (∀ a, (byte? u a).isSome = true ↔ Backed s stack image a) ∧
      (furnish binder binary env stack s).outcome = match (Program.bind binder binary u).outcome with
        | .ok _ => .ok ()
        | .error e => .error (.bind e)
        | .stop how => .stop how := by
  rcases s.map_cases hstack with ⟨s₁, hmap, hlimit₁, hbytes₁⟩ | ⟨page, s₁, -, hlimit₁, hrefused⟩
  swap
  · exact absurd hrefused.exhausted (SparseSpace.not_exhausted (hlimit₁.trans hlimit))
  rcases Program.load_cases hexamine env s₁ with ⟨s₂, hload, -, hloaded⟩ |
    ⟨-, -, -, page, s₂, -, -, -, hlimit₂, hfull, -⟩
  swap
  · exact absurd hfull (SparseSpace.not_exhausted (hlimit₂.trans (hlimit₁.trans hlimit)))
  refine ⟨s₂, fun a => ?_, ?_⟩
  · rw [hloaded.mapped_iff, hbytes₁, Flat.isSome_map, Backed, SparseSpace.isMapped_eq, or_assoc]
  · rw [furnish, Action.bind_of_ok (Action.mapError_of_ok _ (SparseSpace.mapping_of_ok hmap)),
      Action.bind_of_ok (Action.mapError_of_ok EnvError.load hload), Action.outcome_bind,
      Action.outcome_mapError]
    cases (Program.bind binder binary s₂).outcome <;> rfl

/-- Memory without a limit is furnished for any image that is accepted and whose pointers lie where it is
loaded. -/
theorem furnish_of_unlimited (hstack : stack.start ≤ stack.stop) (hlimit : s.limit = none) {image : Image}
    {ps : List Program.Placement} {p : Program.Pointers} (hexamine : Program.examine binary = .ok (image, ps))
    (hp : Program.pointersOf binary = .ok p)
    (hdata : ∀ c ∈ p.candidates, ∀ a, Program.Covers c a → ∃ item ∈ Program.items image, item.Meets a)
    (binder : Binder) (env : Environment) : (furnish binder binary env stack s).outcome = .ok () := by
  obtain ⟨u, hbacked, hend⟩ := furnish_of_accepted hstack hlimit hexamine binder env
  rcases Program.bind_cases hp binder u with ⟨-, s', said, hbind, -⟩ |
    ⟨before, c, after, a, s', said, hsplit, -, hmissing, -⟩
  · rw [hend, hbind]
  · have hc : c ∈ p.candidates := hsplit ▸ List.mem_append_right _ List.mem_cons_self
    have hthere := (hbacked a).2 (.inr (.inr (hdata c hc a hmissing.covers)))
    rw [hmissing.missing] at hthere
    cases hthere

namespace EnvTable

/-- Creating an environment furnishes its memory, and ends as that does. -/
theorem Sound.create_agrees (h : Sound t) (hhead : t.freeHead = some i) {top bottom : UInt64}
    (htop : stackTop t.config.layout i.val = .ok top)
    (hbottom : Word.sub? top t.config.layout.size = some bottom) (binder : Binder) (binary : Bytes)
    (kind : Kind) (s : SparseSpace) :
    let made := create binder binary kind ⟨t, s⟩
    let furnished := furnish binder binary (t.newcomer i .none kind top) ⟨bottom, top⟩ s
    made.state.space = furnished.state ∧
      made.outcome = match furnished.outcome with
        | .ok () => .ok (t[i].id.next i.val)
        | .error e => .error e
        | .stop how => .stop how := by
  have hid := h.resolve_take hhead htop .none kind
  have hregion := stackRegion_of_some (resolveEnv_eq_ok_iff.2 hid) htop hbottom
  obtain ⟨houtcome, hspace⟩ := prepare_agrees binder binary hid (congrArg Effect.outcome hregion) s
  rw [slots_take_self] at houtcome hspace
  dsimp only
  rw [h.create_eq binder hhead htop, ← houtcome, ← hspace]
  split <;> rename_i hend <;> simp [hend]

/-- A creation leaves memory as it is and does not succeed, or it furnishes memory and ends as that does. -/
theorem Sound.create_cases_space (h : Sound t) (binder : Binder) (binary : Bytes) (kind : Kind)
    (s : SparseSpace) :
    let made := create binder binary kind ⟨t, s⟩
    (made.state.space = s ∧ ∀ id, made.outcome ≠ .ok id) ∨
    ∃ env stack, stack.start ≤ stack.stop ∧ made.state.space = (furnish binder binary env stack s).state ∧
      ((∃ id, made.outcome = .ok id) ↔ (furnish binder binary env stack s).outcome = .ok ()) := by
  cases hhead : t.freeHead with
  | none =>
    rw [create_of_empty binder hhead]
    exact .inl ⟨rfl, nofun⟩
  | some i =>
    by_cases hbounded : t.config.layout.Bounded
    · obtain ⟨bottom, top, htop, hbottom, -⟩ := h.exists_stack hbounded i
      obtain ⟨hspace, houtcome⟩ := h.create_agrees hhead htop hbottom binder binary kind s
      refine .inr ⟨_, _, Word.le_of_sub? hbottom, hspace, ?_⟩
      rw [houtcome]
      cases (furnish binder binary (t.newcomer i .none kind top) ⟨bottom, top⟩ s).outcome <;> simp
    · obtain ⟨top, hstop⟩ := h.create_of_unbounded hbounded hhead s binder binary kind
      rw [hstop]
      exact .inl ⟨rfl, nofun⟩

/-- Memory after a creation that succeeded is furnished. -/
theorem Sound.furnished_create (h : Sound t) {id : EnvId}
    (hok : (create binder binary kind ⟨t, s⟩).outcome = .ok id) : ∃ stack,
    let made := create binder binary kind ⟨t, s⟩
    Furnished binder binary stack (byte? s) (byte? made.state.space) ∧
      made.state.space.limit = s.limit := by
  rcases h.create_cases_space binder binary kind s with ⟨-, hfailed⟩ | ⟨env, stack, hstack, hspace, hiff⟩
  · exact absurd hok (hfailed id)
  · rcases furnish_cases hstack binder binary env s with ⟨-, hlimit, hfurnished⟩ | ⟨e, herror⟩
    · rw [← hspace] at hfurnished hlimit
      exact ⟨stack, hfurnished, hlimit⟩
    · rw [hiff.1 ⟨id, hok⟩] at herror
      cases herror

/-- A creation leaves alone what the image does not decide about, however it ends. -/
theorem Sound.frame_create (h : Sound t) (binder : Binder) (binary : Bytes) (kind : Kind)
    (s : SparseSpace) :
    Flat.Frame (Touches binary) (byte? s) (byte? (create binder binary kind ⟨t, s⟩).state.space) := by
  rcases h.create_cases_space binder binary kind s with ⟨hspace, -⟩ | ⟨env, stack, -, hspace, -⟩
  · rw [hspace]
    exact .refl _ _
  · rw [hspace]
    exact frame_furnish binder binary env stack s

/-- With a free slot and memory without a limit, a creation succeeds for any image that is accepted and whose
pointers lie where it is loaded. -/
theorem Sound.create_of_unlimited (h : Sound t) (hbounded : t.config.layout.Bounded)
    (hhead : t.freeHead = some i) (hlimit : s.limit = none) {image : Image} {ps : List Program.Placement}
    {p : Program.Pointers} (hexamine : Program.examine binary = .ok (image, ps))
    (hp : Program.pointersOf binary = .ok p)
    (hdata : ∀ c ∈ p.candidates, ∀ a, Program.Covers c a → ∃ item ∈ Program.items image, item.Meets a)
    (binder : Binder) (kind : Kind) :
    (create binder binary kind ⟨t, s⟩).outcome = .ok (t[i].id.next i.val) := by
  obtain ⟨bottom, top, htop, hbottom, -⟩ := h.exists_stack hbounded i
  rw [(h.create_agrees hhead htop hbottom binder binary kind s).2,
    furnish_of_unlimited (Word.le_of_sub? hbottom) hlimit hexamine hp hdata]

end EnvTable

end EnvKernel.Env
