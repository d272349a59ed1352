import EnvKernel.Proofs.Memory.Copy

/-!
A sparse space behind its operations. `serveAll_access` says that one without a limit answers every
sequence of them as a flat memory with the same bytes does, and holds the same bytes in the end.
`Flat.access` is that flat memory: mapping adds the pages that a range meets, writing replaces all bytes
of a run or names the first one that is missing, and reading gives all bytes of a run or names the first
one that is missing.
-/

namespace EnvKernel.Memory

/-! ### Requests in a row -/

/-- The answers to requests that are made one after the other, and the state that they leave. -/
def serveAll {σ α β : Type} (serve : σ → α → β × σ) (s : σ) : List α → List β × σ
  | [] => ([], s)
  | request :: rest =>
    let (answer, s) := serve s request
    let (answers, s) := serveAll serve s rest
    (answer :: answers, s)

/-- If each request gets the same answer in related states and leaves related states, so do all in a row. -/
theorem serveAll_related {σ τ α β : Type} {R : σ → τ → Prop} {f : σ → α → β × σ} {g : τ → α → β × τ}
    (hstep : ∀ s t request, R s t →
      (f s request).1 = (g t request).1 ∧ R (f s request).2 (g t request).2)
    {s : σ} {t : τ} (h : R s t) (requests : List α) :
    (serveAll f s requests).1 = (serveAll g t requests).1 ∧
      R (serveAll f s requests).2 (serveAll g t requests).2 := by
  induction requests generalizing s t with
  | nil => exact ⟨rfl, h⟩
  | cons request rest ih =>
    obtain ⟨hanswer, hrelated⟩ := hstep s t request h
    obtain ⟨hanswers, hrelated⟩ := ih hrelated
    exact ⟨congrArg₂ List.cons hanswer hanswers, hrelated⟩

/-! ### Accesses -/

/-- What a sparse space is asked for. -/
inductive Access where
  | map (range : Range)
  | write (addr : UInt64) (source : Array UInt8)
  | writeWord (addr value : UInt64)
  | read (addr : UInt64) (len : Nat)
  | readWord (addr : UInt64)

/-- What comes back if it is not refused. -/
inductive Reply where
  | done
  | bytes (bytes : Array UInt8)
  | word (value : UInt64)
deriving DecidableEq

/-- A result with the state that there is after it: the new one if there is one, or else the old one. -/
def keepOnError {σ : Type} (s : σ) : Except MemoryError σ → Except MemoryError Reply × σ
  | .ok s => (.ok .done, s)
  | .error e => (.error e, s)

/-- A sparse space does what it is asked for. -/
def SparseSpace.access (s : SparseSpace) : Access → Except MemoryError Reply × SparseSpace
  | .map range => ((s.map range).1.map fun _ => .done, (s.map range).2)
  | .write addr source => keepOnError s (s.write addr source)
  | .writeWord addr value => keepOnError s (s.writeWord addr value)
  | .read addr len => ((s.read addr len).map .bytes, s)
  | .readWord addr => ((s.readWord addr).map .word, s)

namespace Flat

/-- Memory with bytes stored from `addr` on, if all of them are there. The end of the run must be an
address. -/
def store (m : Flat) (addr : UInt64) (source : Array UInt8) : Except MemoryError Flat :=
  if 0x10000000000000000 ≤ addr.toNat + source.size then .error (.badRange addr Word.max)
  else
    match m.missing? addr source.size with
    | some a => .error (.unmapped a)
    | none => .ok (m.write addr source)

/-- A flat memory does what it is asked for. -/
def access (m : Flat) : Access → Except MemoryError Reply × Flat
  | .map range =>
    if range.stop < range.start then (.error (.badRange range.start range.stop), m)
    else (.ok .done, m.map range)
  | .write addr source => keepOnError m (m.store addr source)
  | .writeWord addr value => keepOnError m (m.store addr (Word.toBytes value))
  | .read addr len => ((m.read addr len).map .bytes, m)
  | .readWord addr => ((m.read addr 8).map fun bytes => .word (Word.ofBytes bytes), m)

/-- The bytes that are there make up whole pages. -/
def Paged (m : Flat) : Prop := ∀ a b, pageBase a = pageBase b → (m a).isSome = (m b).isSome

end Flat

theorem paged_byte? {σ : Type} [PageStore σ] (s : σ) : Flat.Paged (byte? s) := by
  intro a b hpage
  rw [isSome_byte?, isSome_byte?, hpage]

namespace SparseSpace

variable {s s' : SparseSpace} {m : Flat} {addr : UInt64}

theorem map_of_reversed {range : Range} (h : range.stop < range.start) :
    s.map range = (.error (.badRange range.start range.stop), s) := by
  rw [map, Memory.pages, if_pos h]

/-- The space has no limit, and its bytes are those of a flat memory. -/
structure Shows (s : SparseSpace) (m : Flat) : Prop where
  unlimited : s.limit = none
  byte?_eq : byte? s = m

/-- Writing is storing into the flat memory. -/
theorem Shows.write (h : s.Shows m) (addr : UInt64) (source : Array UInt8) :
    (∃ s', s.write addr source = .ok s' ∧ m.store addr source = .ok (byte? s') ∧ s'.limit = none) ∨
      ∃ e, s.write addr source = .error e ∧ m.store addr source = .error e := by
  obtain ⟨hlimit, rfl⟩ := h
  by_cases hfit : addr.toNat + source.size < 0x10000000000000000
  · rw [Flat.store, if_neg (Nat.not_le.2 hfit)]
    rcases s.write_cases addr source hfit with
      ⟨hmapped, s', hwrite, hsame, hbytes⟩ | ⟨a, hwrite, hle, hlt, hnone, hbefore⟩
    · rw [Flat.missing?_eq_none_iff.2 hmapped]
      exact .inl ⟨s', hwrite, congrArg Except.ok hbytes.symm, hsame.trans hlimit⟩
    · rw [Flat.missing?_eq_some_iff.2 ⟨⟨hle, hlt⟩, hnone, hbefore⟩]
      exact .inr ⟨_, hwrite, rfl⟩
  · exact .inr ⟨_, write_of_wraps (Nat.not_lt.1 hfit), if_pos (Nat.not_lt.1 hfit)⟩

/-- A write gets the answer of the flat memory, and leaves its bytes. -/
theorem Shows.keepOnError (h : s.Shows m) (addr : UInt64) (source : Array UInt8) :
    (keepOnError s (s.write addr source)).1 = (Memory.keepOnError m (m.store addr source)).1 ∧
      (Memory.keepOnError s (s.write addr source)).2.Shows
        (Memory.keepOnError m (m.store addr source)).2 := by
  rcases h.write addr source with ⟨s', hwrite, hstore, hlimit⟩ | ⟨e, hwrite, hstore⟩
  · rw [hwrite, hstore]
    exact ⟨rfl, hlimit, rfl⟩
  · rw [hwrite, hstore]
    exact ⟨rfl, h⟩

/-- Every access gets the answer of the flat memory, and leaves its bytes. -/
theorem Shows.access (h : s.Shows m) (request : Access) :
    (s.access request).1 = (m.access request).1 ∧ (s.access request).2.Shows (m.access request).2 := by
  cases request with
  | map range =>
    obtain ⟨hlimit, rfl⟩ := h
    rw [SparseSpace.access, Flat.access]
    by_cases hrange : range.stop < range.start
    · rw [if_pos hrange, map_of_reversed hrange]
      exact ⟨rfl, hlimit, rfl⟩
    · rw [if_neg hrange]
      rcases s.map_cases (UInt64.not_lt.1 hrange) with
        ⟨s', hmap, hsame, hbytes⟩ | ⟨page, s', hmap, hsame, hrefused⟩
      · rw [hmap]
        exact ⟨rfl, hsame.trans hlimit, hbytes⟩
      · exact absurd hrefused.exhausted (not_exhausted (hsame.trans hlimit))
  | write addr source => exact h.keepOnError addr source
  | writeWord addr value => exact h.keepOnError addr (Word.toBytes value)
  | read addr len =>
    refine ⟨?_, h⟩
    rw [SparseSpace.access, Flat.access, SparseSpace.read, copyOut_eq_read, h.byte?_eq]
  | readWord addr =>
    refine ⟨?_, h⟩
    rw [SparseSpace.access, Flat.access, SparseSpace.readWord, SparseSpace.read, copyOut_eq_read, h.byte?_eq]
    cases m.read addr 8 <;> rfl

/-- A word that is stored where all of its bytes are there is read again. -/
theorem readWord_writeWord (value : UInt64) (hfit : addr.toNat + 8 < 0x10000000000000000)
    (hmapped : Mapped s addr.toNat (addr.toNat + 8)) :
    ∃ s', s.writeWord addr value = .ok s' ∧ s'.readWord addr = .ok value := by
  have hsize := Word.size_toBytes value
  rcases s.write_cases addr (Word.toBytes value) (by omega) with
    ⟨-, s', hwrite, -, hbytes⟩ | ⟨a, -, hle, hlt, hnone, -⟩
  · refine ⟨s', hwrite, readWord_of_holds (fun a hle hlt => ?_) (Nat.le_of_lt hfit)⟩
    have hin : a.toNat - addr.toNat < (Word.toBytes value).size := by omega
    rw [hbytes, Flat.write, if_pos ⟨hle, hlt⟩, Array.getElem?_eq_getElem hin, Array.getD, dif_pos hin]
    rfl
  · have hthere := hmapped a hle (by omega)
    rw [hnone] at hthere
    cases hthere

/-- What holds of a space whatever it was asked for before. -/
structure Sound (s : SparseSpace) : Prop where
  paged : Flat.Paged (byte? s)
  readWord_writeWord : ∀ addr value : UInt64, addr.toNat + 8 < 0x10000000000000000 →
    Mapped s addr.toNat (addr.toNat + 8) →
      ∃ s', s.writeWord addr value = .ok s' ∧ s'.readWord addr = .ok value
  /-- Copying out ends after a round for each page. -/
  copyOut_ends : ∀ addr len, copyOutWithin s addr len (len / 4096 + 2) 0 #[] = some (copyOut s addr len)
  /-- Copying in ends after a round for each page. -/
  copyIn_ends : ∀ addr source,
    copyInWithin addr source (source.size / 4096 + 2) s 0 = some (copyIn s addr source)

theorem sound (s : SparseSpace) : s.Sound where
  paged := paged_byte? s
  readWord_writeWord _ value := readWord_writeWord value
  copyOut_ends addr len := copyOutWithin_eq s addr _ 0 #[] fun _ => by omega
  copyIn_ends addr source := copyInWithin_eq s addr source _ 0 fun _ => by omega

/-- A space without a limit answers every sequence of accesses as the flat memory of its bytes does, and
holds the bytes of that in the end. -/
theorem serveAll_access (h : s.limit = none) (requests : List Access) :
    (serveAll access s requests).1 = (serveAll Flat.access (byte? s) requests).1 ∧
      byte? (serveAll access s requests).2 = (serveAll Flat.access (byte? s) requests).2 ∧
        (serveAll access s requests).2.Sound := by
  have hshows : s.Shows (byte? s) := ⟨h, rfl⟩
  obtain ⟨hanswers, hend⟩ := serveAll_related (R := Shows) (f := access) (g := Flat.access)
    (fun _ _ request h => h.access request) hshows requests
  exact ⟨hanswers, hend.byte?_eq, sound _⟩

/-- A word across the boundary of two pages, and then one of which half a page is missing. -/
theorem serveAll_access_crossing :
    let requests : List Access := [.map ⟨0x1fff, 0x2001⟩, .writeWord 0x1ffc 0x1122334455667788,
      .readWord 0x1ffc, .read 0x2000 4, .writeWord 0x2ffc 1, .read 0x2ffe 4, .map ⟨0x2000, 0x1000⟩,
      .write 0xffffffffffffffff #[7]]
    ({} : SparseSpace).limit = none ∧ (serveAll access {} requests).1 = [.ok .done, .ok .done,
      .ok (.word 0x1122334455667788), .ok (.bytes #[0x44, 0x33, 0x22, 0x11]), .error (.unmapped 0x3000),
      .error (.unmapped 0x3000), .error (.badRange 0x2000 0x1000),
      .error (.badRange 0xffffffffffffffff 0xffffffffffffffff)] := by
  intro requests
  refine ⟨rfl, ?_⟩
  rw [(serveAll_access (s := {}) rfl requests).1]
  decide +kernel

end SparseSpace

end EnvKernel.Memory
