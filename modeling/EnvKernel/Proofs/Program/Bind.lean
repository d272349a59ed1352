import EnvKernel.Program.Bind
import EnvKernel.Proofs.Bytes
import EnvKernel.Proofs.Memory.Sparse

/-!
Binding in a sparse space. `pointers_eq_ok_iff` says which sections binding reads, and `bind_exact` what
comes of it: the pointers in the uninitialised data get the addresses of their functions one after the
other, all of them or those before the first that is not in memory, and nothing else changes.
-/

namespace EnvKernel.Program

open Elf Env Memory

variable {binder : Binder} {binary names : Bytes} {image : Image} {p : Pointers} {c : Symbol}
  {cs : List Symbol} {s s' : SparseSpace} {m : Flat} {a : UInt64} {outcome : Outcome BindError Report}

/-! ### Which pointers -/

/-- What binding takes from an image, whose section names are in `table`. -/
structure Pointers.Found (image : Image) (table : Bytes) (p : Pointers) : Prop where
  /-- The section that the file header names is a string table in the file. -/
  sectionNames : ∃ sh, image.sectionNames? = some sh ∧ sh.kind = .stringTable ∧
    image.sectionData sh = .ok table
  /-- The first section called `.bss`, of whatever kind. It does not wrap. -/
  data : ∃ sh, image.sectionHeaders.find? (isNamed table ".bss") = some sh ∧ p.data.start = sh.addr ∧
    p.data.stop.toNat = sh.addr.toNat + sh.size.toNat
  /-- The first string table called `.strtab`. It is in the file. -/
  names : ∃ sh, image.sectionHeaders.find? (fun sh =>
    sh.kind == .stringTable && isNamed table ".strtab" sh) = some sh ∧ image.sectionData sh = .ok p.names
  /-- The first symbol table, whatever it is called, is in the file. There may be none. -/
  symbols : (image.sectionHeaders.find? (·.kind == .symbolTable) = none ∧ p.symbols = []) ∨
    ∃ sh, image.sectionHeaders.find? (·.kind == .symbolTable) = some sh ∧ image.symbols sh = .ok p.symbols

/-- A symbol is a candidate if it is a global object whose eight bytes lie in the uninitialised data. -/
def Pointers.IsCandidate (p : Pointers) (c : Symbol) : Prop :=
  c.isGlobalObject = true ∧ p.data.start.toNat ≤ c.value.toNat ∧ c.value.toNat + 8 ≤ p.data.stop.toNat

instance (p : Pointers) : DecidablePred p.IsCandidate :=
  fun _ => inferInstanceAs (Decidable (_ ∧ _ ∧ _))

/-- The candidates, in the order of the symbol table. -/
def Pointers.candidates (p : Pointers) : List Symbol := p.symbols.filter fun c => p.IsCandidate c

theorem required_eq_ok_iff {α : Type} {e : BindError} {o : Option α} {x : α} :
    required e o = .ok x ↔ o = some x := by
  cases o <;> simp [required]

theorem inImage_eq_ok_iff {α : Type} {r : Except OutOfBounds α} {x : α} :
    inImage r = .ok x ↔ r = .ok x := Reading.mapError_eq_ok_iff

theorem allSymbols_eq_ok_iff : allSymbols image = .ok cs ↔
    (image.sectionHeaders.find? (·.kind == .symbolTable) = none ∧ cs = []) ∨
      ∃ sh, image.sectionHeaders.find? (·.kind == .symbolTable) = some sh ∧ image.symbols sh = .ok cs := by
  rw [allSymbols]
  cases image.sectionHeaders.find? (·.kind == .symbolTable) <;> simp [eq_comm]

/-- An image has pointers exactly if it has the sections that binding looks for. -/
theorem pointers_eq_ok_iff : pointers image = .ok p ↔ ∃ table, p.Found image table := by
  simp only [pointers, Reading.bind_eq_ok_iff, required_eq_ok_iff, inImage_eq_ok_iff,
    allSymbols_eq_ok_iff, Option.filter_eq_some_iff, beq_iff_eq]
  constructor
  · rintro ⟨nameSection, ⟨hsection, hkind⟩, table, htable, bss, hbss, stop, hstop, strtab, hstrtab, text,
      htext, symbols, hsymbols, ⟨⟩⟩
    exact ⟨table, ⟨nameSection, hsection, hkind, htable⟩, ⟨bss, hbss, rfl, Word.toNat_add? hstop⟩,
      ⟨strtab, hstrtab, htext⟩, hsymbols⟩
  · rintro ⟨table, ⟨nameSection, hsection, hkind, htable⟩, ⟨bss, hbss, hstart, hend⟩,
      ⟨strtab, hstrtab, htext⟩, hsymbols⟩
    have hstop : bss.addrEnd? = some p.data.stop := by
      have hlt := p.data.stop.toNat_lt
      rw [SectionHeader.addrEnd?, Word.add?, if_pos (by omega), Option.some_inj,
        ← UInt64.toNat_inj, Word.toNat_add (by omega), hend]
    exact ⟨nameSection, ⟨hsection, hkind⟩, table, htable, bss, hbss, _, hstop, strtab, hstrtab, _, htext, _,
      hsymbols, by rw [← hstart]; rfl⟩

/-- What keeps an image from having pointers is in the image, not in memory. -/
theorem pointersOf_ne_memory (e : MemoryError) : pointersOf binary ≠ .error (.memory e) := by
  have hrequired : ∀ {α : Type} {e' : BindError} {o : Option α}, required e' o = .error (.memory e) →
      e' = .memory e := by
    intro α e' o h
    cases o <;> cases h
    rfl
  have hread : ∀ {α : Type} {r : Except OutOfBounds α}, inImage r ≠ .error (.memory e) := by
    rintro α (_ | _) ⟨⟩
  rw [pointersOf]
  split
  · nofun
  · simp [pointers, Reading.bind_eq_error_iff, hread, mt hrequired, pure, Except.pure]

theorem isCandidate_iff : isCandidate p.data c = true ↔ p.IsCandidate c := by
  have hlt := p.data.stop.toNat_lt
  have hsize : pointerSize.toNat = 8 := rfl
  rw [isCandidate, Pointers.IsCandidate]
  cases hstop : Word.add? c.value pointerSize with
  | none =>
    rw [Word.add?_eq_none_iff, hsize] at hstop
    simp only [Bool.and_false, Bool.false_eq_true, false_iff]
    omega
  | some stop =>
    have hvalue := Word.toNat_add? hstop
    rw [hsize] at hvalue
    simp [UInt64.le_iff_toNat_le, hvalue, and_assoc]

theorem filter_isCandidate (p : Pointers) : p.symbols.filter (isCandidate p.data) = p.candidates :=
  List.filter_congr fun c _ => by rw [Bool.eq_iff_iff, isCandidate_iff, decide_eq_true_iff]

theorem mem_candidates_iff : c ∈ p.candidates ↔ c ∈ p.symbols ∧ p.IsCandidate c := by
  rw [Pointers.candidates, List.mem_filter, decide_eq_true_iff]

theorem pointersOf_eq_ok_iff : pointersOf binary = .ok p ↔
    ∃ image table, Image.parse binary = .ok image ∧ p.Found image table := by
  rw [pointersOf]
  cases Image.parse binary with
  | error e => simp
  | ok image => simp [pointers_eq_ok_iff]

/-! ### Memory and report -/

/-- What goes into a pointer: the address of the function of its name, or zero if that cannot be read. -/
def target (binder : Binder) (names : Bytes) (c : Symbol) : UInt64 :=
  match symbolName? names c with
  | some name => (binder.resolve name).addr
  | none => 0

/-- Memory with the given pointers bound in order. -/
def bound (binder : Binder) (names : Bytes) (m : Flat) (cs : List Symbol) : Flat :=
  cs.foldl (fun m c => m.write c.value (Word.toBytes (target binder names c))) m

/-- The report of binding the given pointers. Names that cannot be read are told as `<invalid>`. -/
def reportOf (binder : Binder) (names : Bytes) (cs : List Symbol) : Report where
  bound := cs.countP fun c => resolution binder names c ≠ .unresolved
  unresolved := cs.countP fun c => resolution binder names c = .unresolved
  names := ((cs.filter fun c => resolution binder names c = .unresolved).map fun c =>
    (symbolName? names c).getD "<invalid>").take maxReported

/-- The address is one of the eight of the pointer. -/
def Covers (c : Symbol) (a : UInt64) : Prop := c.value.toNat ≤ a.toNat ∧ a.toNat < c.value.toNat + 8

/-- All eight bytes of the pointer are there. -/
def Present (m : Flat) (c : Symbol) : Prop := ∀ a, Covers c a → (m a).isSome = true

/-- The first byte of the pointer that is not there. -/
structure FirstMissing (m : Flat) (c : Symbol) (a : UInt64) : Prop where
  covers : Covers c a
  missing : m a = none
  before : ∀ b, Covers c b → b.toNat < a.toNat → (m b).isSome = true

theorem addr_resolution (binder : Binder) (names : Bytes) (c : Symbol) :
    (resolution binder names c).addr = target binder names c := by
  rw [resolution, target]
  cases symbolName? names c <;> rfl

theorem bound_singleton_of_not_covers (h : ¬ Covers c a) : bound binder names m [c] a = m a := by
  refine if_neg ?_
  rwa [Word.size_toBytes]

theorem isSome_bound_singleton (binder : Binder) (names : Bytes) (h : Present m c) (a : UInt64) :
    (bound binder names m [c] a).isSome = (m a).isSome := by
  refine Flat.isSome_write (fun a hle hlt => h a ⟨hle, ?_⟩) a
  rwa [Word.size_toBytes] at hlt

/-- Nothing changes but the pointers. -/
theorem bound_of_not_covers (h : ∀ c ∈ cs, ¬ Covers c a) : bound binder names m cs a = m a := by
  induction cs generalizing m with
  | nil => rfl
  | cons c cs ih =>
    have hfirst : bound binder names m [c] a = m a :=
      bound_singleton_of_not_covers (h c List.mem_cons_self)
    rw [← hfirst]
    exact ih fun c hc => h c (List.mem_cons_of_mem _ hc)

/-- No byte appears or vanishes. -/
theorem isSome_bound (h : ∀ c ∈ cs, Present m c) (a : UInt64) :
    (bound binder names m cs a).isSome = (m a).isSome := by
  induction cs generalizing m with
  | nil => rfl
  | cons c cs ih =>
    have hfirst := isSome_bound_singleton binder names (h c List.mem_cons_self)
    rw [← hfirst]
    refine ih fun d hd b hb => ?_
    rw [← h d (List.mem_cons_of_mem _ hd) b hb]
    exact hfirst b

theorem take_concat {α : Type} (xs : List α) (x : α) (n : Nat) :
    (xs ++ [x]).take n = if (xs.take n).length < n then xs.take n ++ [x] else xs.take n := by
  rw [List.length_take, List.take_append]
  split
  · rw [List.take_of_length_le (l := [x]) (by simp; omega)]
  · rw [show n - xs.length = 0 by omega, List.take_zero, List.append_nil]

theorem reportOf_concat (binder : Binder) (names : Bytes) (cs : List Symbol) (c : Symbol) :
    reportOf binder names (cs ++ [c]) =
      if resolution binder names c = .unresolved then
        (reportOf binder names cs).addUnresolved ((symbolName? names c).getD "<invalid>")
      else (reportOf binder names cs).addBound := by
  split <;> rename_i h
  · simp [reportOf, Report.addUnresolved, h, take_concat]
  · simp [reportOf, Report.addBound, h]

/-! ### Carrying it out -/

/-- A pointer is bound, or some byte of it is not there. -/
theorem bindPointer_cases (hfit : c.value.toNat + 8 < 0x10000000000000000) (cs : List Symbol)
    (s : SparseSpace) :
    (Present (byte? s) c ∧ ∃ s' said, bindPointer binder names (reportOf binder names cs) c s =
      ⟨.ok (reportOf binder names (cs ++ [c])), s', said⟩ ∧ s'.limit = s.limit ∧
        byte? s' = bound binder names (byte? s) [c]) ∨
    ∃ a, FirstMissing (byte? s) c a ∧
      bindPointer binder names (reportOf binder names cs) c s = ⟨.error (.unmapped a), s, []⟩ := by
  have hsize : (Word.toBytes (target binder names c)).size = 8 := Word.size_toBytes _
  rw [bindPointer, Memory.writeWord, addr_resolution]
  rcases s.write_cases c.value (Word.toBytes (target binder names c)) (by omega) with
    ⟨hmapped, s', hwrite, hlimit, hbytes⟩ | ⟨a, hwrite, hle, hlt, hnone, hbefore⟩
  · refine .inl ⟨fun a ha => hmapped a ha.1 (hsize ▸ ha.2), s', ?_⟩
    rw [Action.bind_of_ok (SparseSpace.writing_of_ok hwrite), reportOf_concat]
    cases resolution binder names c with
    | unresolved => exact ⟨_, rfl, hlimit, hbytes⟩
    | exported | debug => exact ⟨_, rfl, hlimit, hbytes⟩
  · refine .inr ⟨a, ⟨⟨hle, hsize ▸ hlt⟩, hnone, fun b hb hlt => hbefore b hb.1 hlt⟩, ?_⟩
    rw [Action.bind_of_error (SparseSpace.writing_of_error hwrite)]

/-- Pointers are bound, or all of them before one of which some byte is not there. -/
theorem bindPointers_cases (rest : List Symbol) (hfit : ∀ c ∈ rest, c.value.toNat + 8 < 0x10000000000000000)
    (cs : List Symbol) (s : SparseSpace) :
    ((∀ c ∈ rest, Present (byte? s) c) ∧ ∃ s' said,
      bindPointers binder names (reportOf binder names cs) rest s =
        ⟨.ok (reportOf binder names (cs ++ rest)), s', said⟩ ∧ s'.limit = s.limit ∧
      byte? s' = bound binder names (byte? s) rest) ∨
    ∃ before c after a s' said, rest = before ++ c :: after ∧ (∀ b ∈ before, Present (byte? s) b) ∧
      FirstMissing (byte? s) c a ∧
      bindPointers binder names (reportOf binder names cs) rest s = ⟨.error (.unmapped a), s', said⟩ ∧
      s'.limit = s.limit ∧ byte? s' = bound binder names (byte? s) before := by
  induction rest generalizing cs s with
  | nil => exact .inl ⟨nofun, s, [], by rw [List.append_nil]; rfl, rfl, rfl⟩
  | cons c rest ih =>
    rcases bindPointer_cases (hfit c List.mem_cons_self) cs s with
      ⟨hpresent, s₁, said₁, hfirst, hlimit, hbytes⟩ | ⟨a, hmissing, hfirst⟩
    · -- binding the first pointer leaves the same bytes there, so the others are as present as before
      have hsame := isSome_bound_singleton binder names hpresent
      rw [← hbytes] at hsame
      have hpresent_iff : ∀ d, Present (byte? s₁) d ↔ Present (byte? s) d := fun d =>
        forall₂_congr fun b _ => by rw [hsame b]
      have hall : ∀ ds, (∀ d ∈ ds, Present (byte? s₁) d) → ∀ d ∈ c :: ds, Present (byte? s) d := by
        rintro ds hds d (_ | ⟨_, hd⟩)
        · exact hpresent
        · exact (hpresent_iff d).1 (hds d hd)
      rw [bindPointers, Action.bind_of_ok hfirst]
      rcases ih (fun d hd => hfit d (List.mem_cons_of_mem _ hd)) (cs ++ [c]) s₁ with
        ⟨hrest, s', said, heq, hlimit', hbytes'⟩ |
        ⟨before, d, after, a, s', said, rfl, hbefore, hmissing, heq, hlimit', hbytes'⟩
      · rw [heq, List.append_assoc]
        rw [hbytes] at hbytes'
        exact .inl ⟨hall rest hrest, s', _, rfl, hlimit'.trans hlimit, hbytes'⟩
      · rw [heq]
        rw [hbytes] at hbytes'
        refine .inr ⟨c :: before, d, after, a, s', _, rfl, hall before hbefore, ?_, rfl,
          hlimit'.trans hlimit, hbytes'⟩
        refine ⟨hmissing.covers, ?_, fun b hb hlt => (hsame b) ▸ hmissing.before b hb hlt⟩
        rw [← Option.not_isSome_iff_eq_none, ← hsame a, Option.not_isSome_iff_eq_none]
        exact hmissing.missing
    · refine .inr ⟨[], c, rest, a, s, [], rfl, nofun, hmissing, ?_, rfl, rfl⟩
      rw [bindPointers, Action.bind_of_error hfirst]

/-- The candidates of an image are bound, or all of them before one of which some byte is not there. -/
theorem bind_cases (hp : pointersOf binary = .ok p) (binder : Binder) (s : SparseSpace) :
    ((∀ c ∈ p.candidates, Present (byte? s) c) ∧ ∃ s' said,
      bind binder binary s = ⟨.ok (reportOf binder p.names p.candidates), s', said⟩ ∧ s'.limit = s.limit ∧
        byte? s' = bound binder p.names (byte? s) p.candidates) ∨
    ∃ before c after a s' said, p.candidates = before ++ c :: after ∧
      (∀ b ∈ before, Present (byte? s) b) ∧ FirstMissing (byte? s) c a ∧
      bind binder binary s = ⟨.error (.memory (.unmapped a)), s', said⟩ ∧ s'.limit = s.limit ∧
        byte? s' = bound binder p.names (byte? s) before := by
  have hfit : ∀ c ∈ p.candidates, c.value.toNat + 8 < 0x10000000000000000 := fun c hc => by
    have := (mem_candidates_iff.1 hc).2.2.2
    have := p.data.stop.toNat_lt
    omega
  have hbind : bind binder binary s = Action.mapError .memory
      (bindPointers binder p.names (reportOf binder p.names []) p.candidates) s := by
    rw [bind, hp, ← filter_isCandidate]
    rfl
  rw [hbind]
  rcases bindPointers_cases p.candidates hfit [] s with ⟨hpresent, s', said, heq, hdone⟩ |
    ⟨before, c, after, a, s', said, hsplit, hpresent, hmissing, heq, hdone⟩
  · rw [List.nil_append] at heq
    exact .inl ⟨hpresent, s', said, Action.mapError_of_ok _ heq, hdone⟩
  · exact .inr ⟨before, c, after, a, s', said, hsplit, hpresent, hmissing,
      Action.mapError_of_error _ heq, hdone⟩

/-- How binding the pointers of `binary` in memory `s` ends, and the memory it leaves. -/
inductive Bound (binder : Binder) (binary : Bytes) (s : SparseSpace) :
    Outcome BindError Report → SparseSpace → Prop where
  /-- The image has no pointers to speak of, which is found before anything is written. -/
  | refused {e : BindError} (reason : pointersOf binary = .error e) (not_memory : ∀ e', e ≠ .memory e') :
      Bound binder binary s (.error e) s
  /-- All candidates are bound. -/
  | all {image : Image} {table : Bytes} {p : Pointers} {s' : SparseSpace}
      (parsed : Image.parse binary = .ok image) (found : p.Found image table)
      (present : ∀ c ∈ p.candidates, Present (byte? s) c)
      (bytes : byte? s' = bound binder p.names (byte? s) p.candidates) :
      Bound binder binary s (.ok (reportOf binder p.names p.candidates)) s'
  /-- A byte of a candidate is not there, and those before it are bound. -/
  | partly {image : Image} {table : Bytes} {p : Pointers} {before after : List Symbol} {c : Symbol}
      {a : UInt64} {s' : SparseSpace} (parsed : Image.parse binary = .ok image)
      (found : p.Found image table) (candidates_eq : p.candidates = before ++ c :: after)
      (present : ∀ b ∈ before, Present (byte? s) b) (covers : Covers c a) (missing : byte? s a = none)
      (bytes : byte? s' = bound binder p.names (byte? s) before) :
      Bound binder binary s (.error (.memory (.unmapped a))) s'

theorem bound_bind (binder : Binder) (binary : Bytes) (s : SparseSpace) :
    let done := bind binder binary s
    Bound binder binary s done.outcome done.state ∧ done.state.limit = s.limit := by
  cases hp : pointersOf binary with
  | error e =>
    rw [bind, hp]
    exact ⟨.refused hp fun e' heq => pointersOf_ne_memory e' (heq ▸ hp), rfl⟩
  | ok p =>
    obtain ⟨image, table, hparsed, hfound⟩ := pointersOf_eq_ok_iff.1 hp
    rcases bind_cases hp binder s with ⟨hpresent, s', said, heq, hlimit, hbytes⟩ |
      ⟨before, c, after, a, s', said, hsplit, hpresent, hmissing, heq, hlimit, hbytes⟩
    · rw [heq]
      exact ⟨.all hparsed hfound hpresent hbytes, hlimit⟩
    · rw [heq]
      exact ⟨.partly hparsed hfound hsplit hpresent hmissing.covers hmissing.missing hbytes, hlimit⟩

/-- Whatever the end is, some of the candidates are bound and nothing else changed. -/
theorem Bound.exists_bound (h : Bound binder binary s outcome s') :
    ∃ p cs, byte? s' = bound binder p.names (byte? s) cs ∧ (∀ c ∈ cs, Present (byte? s) c) ∧
      ∀ c ∈ cs, pointersOf binary = .ok p ∧ c ∈ p.candidates := by
  cases h with
  | refused => exact ⟨⟨⟨0, 0⟩, .empty, []⟩, [], rfl, nofun, nofun⟩
  | all parsed found present bytes =>
    exact ⟨_, _, bytes, present, fun c hc => ⟨pointersOf_eq_ok_iff.2 ⟨_, _, parsed, found⟩, hc⟩⟩
  | partly parsed found candidates_eq present _ _ bytes =>
    refine ⟨_, _, bytes, present, fun c hc => ⟨pointersOf_eq_ok_iff.2 ⟨_, _, parsed, found⟩, ?_⟩⟩
    rw [candidates_eq]
    exact List.mem_append_left _ hc

/-- Binding leaves alone what is not covered by a candidate. -/
theorem byte?_bind (h : ∀ p, pointersOf binary = .ok p → ∀ c ∈ p.candidates, ¬ Covers c a) :
    byte? (bind binder binary s).state a = byte? s a := by
  obtain ⟨p, cs, hbytes, -, hcandidates⟩ := (bound_bind binder binary s).1.exists_bound
  rw [hbytes]
  exact bound_of_not_covers fun c hc => h p (hcandidates c hc).1 c (hcandidates c hc).2

/-- Binding does what the candidates ask for, in order and as far as it gets. It changes no mapping, and
no byte but those of the uninitialised data. -/
theorem bind_exact (binder : Binder) (binary : Bytes) (s : SparseSpace) :
    let done := bind binder binary s
    Bound binder binary s done.outcome done.state ∧ (∀ a, done.state.isMapped a = s.isMapped a) ∧
      ∀ a, byte? done.state a ≠ byte? s a → ∃ image table, ∃ p : Pointers,
        Image.parse binary = .ok image ∧ p.Found image table ∧ p.data.start.toNat ≤ a.toNat ∧
          a.toNat < p.data.stop.toNat := by
  have h := (bound_bind binder binary s).1
  refine ⟨h, fun a => ?_, fun a hchanged => ?_⟩
  · obtain ⟨p, cs, hbytes, hpresent, -⟩ := h.exists_bound
    rw [SparseSpace.isMapped_eq, SparseSpace.isMapped_eq, hbytes, isSome_bound hpresent]
  · by_contra hout
    refine hchanged (byte?_bind fun p hp c hc hcovers => hout ?_)
    obtain ⟨image, table, hparsed, hfound⟩ := pointersOf_eq_ok_iff.1 hp
    obtain ⟨-, -, hstart, hstop⟩ := mem_candidates_iff.1 hc
    obtain ⟨hle, hlt⟩ := hcovers
    exact ⟨image, table, p, hparsed, hfound, by omega, by omega⟩

end EnvKernel.Program
