import EnvKernel.Memory.Space
import EnvKernel.Proofs.Memory.Store

/-!
A sparse space as a flat memory: a partial map from addresses to bytes. `map_cases` and `write_cases` say
what mapping and writing come to there. Mapping adds the pages that a range meets, full of zeros, or all
of them before the first for which there is no room. Writing replaces all bytes of a run or none.
-/

namespace EnvKernel.Memory

/-- The bytes that are there, by their addresses. -/
abbrev Flat : Type := UInt64 → Option UInt8

namespace Flat

variable {m m' m'' : Flat} {P Q : UInt64 → Prop} {range : Range}

/-- Memory with every page that meets the range. Those that are new hold zeros. -/
def map (m : Flat) (range : Range) : Flat := fun a =>
  if range.Meets a then some ((m a).getD 0) else m a

/-- Memory with the bytes of `source` from `addr` on. -/
def write (m : Flat) (addr : UInt64) (source : Array UInt8) : Flat := fun a =>
  if addr.toNat ≤ a.toNat ∧ a.toNat < addr.toNat + source.size then source[a.toNat - addr.toNat]?
  else m a

/-- Memory `m'` is `m` with the bytes for which `P` holds. Those that are new are zero. -/
def Fills (P : UInt64 → Prop) (m m' : Flat) : Prop :=
  ∀ a, (P a → m' a = some ((m a).getD 0)) ∧ (¬ P a → m' a = m a)

theorem fills_false (m : Flat) : Fills (fun _ => False) m m := fun _ => ⟨nofun, fun _ => rfl⟩

theorem Fills.congr (h : Fills P m m') (hiff : ∀ a, P a ↔ Q a) : Fills Q m m' :=
  fun a => ⟨fun hq => (h a).1 ((hiff a).2 hq), fun hq => (h a).2 (mt (hiff a).1 hq)⟩

theorem Fills.trans (h : Fills P m m') (h' : Fills Q m' m'') : Fills (fun a => P a ∨ Q a) m m'' := by
  intro a
  obtain ⟨hin, hout⟩ := h a
  obtain ⟨hin', hout'⟩ := h' a
  by_cases hp : P a <;> by_cases hq : Q a
  · simp [hin' hq, hin hp, hp]
  · simp [hout' hq, hin hp, hp]
  · simp [hin' hq, hout hp, hq]
  · simp [hout' hq, hout hp, hp, hq]

theorem Fills.eq_map (h : Fills range.Meets m m') : m' = m.map range := by
  funext a
  rw [map]
  split
  · exact (h a).1 ‹_›
  · exact (h a).2 ‹_›

theorem map_of_meets {a : UInt64} (h : range.Meets a) : m.map range a = some ((m a).getD 0) := if_pos h

theorem map_of_not_meets {a : UInt64} (h : ¬ range.Meets a) : m.map range a = m a := if_neg h

theorem isSome_map {a : UInt64} : (m.map range a).isSome = true ↔ (m a).isSome = true ∨ range.Meets a := by
  rw [map]
  split <;> simp [*]

/-- Outside of `P`, what there is in `m` is in `m'`, and what appears is zero. -/
def Frame (P : UInt64 → Prop) (m m' : Flat) : Prop :=
  ∀ a, ¬ P a → m' a = m a ∨ m a = none ∧ m' a = some 0

theorem Frame.refl (P : UInt64 → Prop) (m : Flat) : Frame P m m := fun _ _ => .inl rfl

theorem Frame.trans (h : Frame P m m') (h' : Frame P m' m'') : Frame P m m'' := by
  intro a ha
  rcases h a ha with heq | ⟨hnone, hzero⟩ <;> rcases h' a ha with heq' | ⟨hnone', hzero'⟩
  · exact .inl (heq'.trans heq)
  · exact .inr ⟨heq ▸ hnone', hzero'⟩
  · exact .inr ⟨hnone, heq'.trans hzero⟩
  · exact .inr ⟨hnone, hzero'⟩

theorem Frame.mono (h : Frame P m m') (hsub : ∀ a, P a → Q a) : Frame Q m m' :=
  fun a ha => h a (mt (hsub a) ha)

theorem Fills.frame (h : Fills P m m') (Q : UInt64 → Prop) : Frame Q m m' := by
  intro a _
  by_cases hp : P a
  · rw [(h a).1 hp]
    cases m a <;> simp
  · exact .inl ((h a).2 hp)

theorem frame_map (P : UInt64 → Prop) (m : Flat) (range : Range) : Frame P m (m.map range) := by
  intro a _
  rw [map]
  split
  · cases m a <;> simp
  · exact .inl rfl

/-- What is there outside of `P` is the old byte, or zero if there was none. -/
theorem Frame.eq_some {a : UInt64} (h : Frame P m m') (ha : ¬ P a) (hthere : (m' a).isSome = true) :
    m' a = some ((m a).getD 0) := by
  rcases h a ha with heq | ⟨hnone, hzero⟩
  · obtain ⟨b, hb⟩ := Option.isSome_iff_exists.1 hthere
    rw [← heq, hb, Option.getD_some]
  · rw [hnone, hzero, Option.getD_none]

/-- Bytes that are there are replaced. -/
theorem isSome_write {source : Array UInt8} {addr : UInt64}
    (h : ∀ a, addr.toNat ≤ a.toNat → a.toNat < addr.toNat + source.size → (m a).isSome = true) (a : UInt64) :
    (m.write addr source a).isSome = (m a).isSome := by
  rw [write]
  split
  · rename_i hin
    have hlt : a.toNat - addr.toNat < source.size := by omega
    simp [h a hin.1 hin.2, hlt]
  · rfl

theorem write_of_size_eq_zero {source : Array UInt8} {addr : UInt64} (h : source.size = 0) :
    m.write addr source = m := by
  funext a
  exact if_neg (by omega)

end Flat

namespace SparseSpace

variable {s s' : SparseSpace} {range : Range}

theorem isSome_page? (s : SparseSpace) (base : UInt64) :
    (PageStore.page? s base).isSome = s.pages.contains base :=
  Std.TreeMap.isSome_getElem?_eq_contains

/-- An address is mapped if its byte is there. -/
theorem isMapped_eq (s : SparseSpace) (a : UInt64) : s.isMapped a = (byte? s a).isSome := by
  rw [isSome_byte?, isSome_page?, isMapped]

/-- There is a limit on the number of pages, and it is reached. -/
def Exhausted (s : SparseSpace) : Prop := ∃ limit, s.limit = some limit ∧ limit ≤ s.mappedPages

/-- Without a limit there is always room. -/
theorem not_exhausted (h : s.limit = none) : ¬ s.Exhausted := by
  rintro ⟨limit, hsome, -⟩
  rw [h] at hsome
  cases hsome

theorem isFull_iff : s.isFull = true ↔ s.Exhausted := by
  rw [isFull, Exhausted]
  cases s.limit <;> simp

/-! ### Mapping -/

/-- A page is there, or is added full of zeros, or there is no room for it. -/
theorem addPage_cases (s : SparseSpace) (base : UInt64) :
    (∃ s', s.addPage base = .ok s' ∧ s'.limit = s.limit ∧
      Flat.Fills (fun a => pageBase a = base) (byte? s) (byte? s')) ∨
    (s.addPage base = .error (.mapFailed base) ∧ s.Exhausted ∧
      ∀ a, pageBase a = base → byte? s a = none) := by
  rw [addPage]
  by_cases hthere : s.pages.contains base = true
  · refine .inl ⟨s, if_pos hthere, rfl, fun a => ⟨?_, fun _ => rfl⟩⟩
    rintro rfl
    have hbyte : (byte? s a).isSome = true := by rw [isSome_byte?, isSome_page?, hthere]
    obtain ⟨b, hb⟩ := Option.isSome_iff_exists.1 hbyte
    simp [hb]
  · have hnone : ∀ a, pageBase a = base → byte? s a = none := by
      rintro a rfl
      rw [← Option.not_isSome_iff_eq_none, isSome_byte?, isSome_page?]
      exact hthere
    rw [if_neg hthere]
    by_cases hfull : s.isFull = true
    · exact .inr ⟨if_pos hfull, isFull_iff.1 hfull, hnone⟩
    · refine .inl ⟨_, if_neg hfull, rfl, fun a => ?_⟩
      have hbyte := byte?_setPage_fill s base 0 a
      refine ⟨fun hat => ?_, fun hat => ?_⟩
      · rw [hnone a hat]
        exact hbyte.trans (if_pos hat)
      · exact hbyte.trans (if_neg hat)

/-- The pages of a run from number `i` on are added, or all of them before one for which there is no
room. -/
theorem addPages_cases (s : SparseSpace) (run : PageRun) (count i : Nat) :
    (∃ s', s.addPages run count i = (.ok (), s') ∧ s'.limit = s.limit ∧
      Flat.Fills (fun a => ∃ j, i ≤ j ∧ j < i + count ∧ run.base j = pageBase a) (byte? s) (byte? s')) ∨
    ∃ k s', i ≤ k ∧ k < i + count ∧ s.addPages run count i = (.error (.mapFailed (run.base k)), s') ∧
      s'.limit = s.limit ∧ s'.Exhausted ∧ (∀ a, pageBase a = run.base k → byte? s' a = none) ∧
      Flat.Fills (fun a => ∃ j, i ≤ j ∧ j < k ∧ run.base j = pageBase a) (byte? s) (byte? s') := by
  induction count generalizing s i with
  | zero =>
    refine .inl ⟨s, rfl, rfl, (Flat.fills_false _).congr fun a => ⟨nofun, ?_⟩⟩
    rintro ⟨j, hij, hj, -⟩
    omega
  | succ count ih =>
    -- page number `i` comes before all the others
    have hfirst : ∀ k, i < k → ∀ a, (pageBase a = run.base i ∨
        ∃ j, i + 1 ≤ j ∧ j < k ∧ run.base j = pageBase a) ↔
          ∃ j, i ≤ j ∧ j < k ∧ run.base j = pageBase a := by
      intro k hk a
      constructor
      · rintro (hat | ⟨j, hij, hj, hat⟩)
        · exact ⟨i, Nat.le_refl i, hk, hat.symm⟩
        · exact ⟨j, by omega, hj, hat⟩
      · rintro ⟨j, hij, hj, hat⟩
        rcases Nat.eq_or_lt_of_le hij with rfl | hlt
        · exact .inl hat.symm
        · exact .inr ⟨j, hlt, hj, hat⟩
    rcases addPage_cases s (run.base i) with ⟨s₁, hadd, hlimit, hfill⟩ | ⟨hadd, hfull, hnone⟩
    · rw [addPages, hadd]
      rcases ih s₁ (i + 1) with ⟨s', hrest, hlimit', hfill'⟩ |
        ⟨k, s', hik, hk, hrest, hlimit', hfull, hnone, hfill'⟩
      · refine .inl ⟨s', hrest, hlimit'.trans hlimit, (hfill.trans hfill').congr fun a => ?_⟩
        rw [← hfirst (i + (count + 1)) (by omega) a, show i + 1 + count = i + (count + 1) by omega]
      · exact .inr ⟨k, s', by omega, by omega, hrest, hlimit'.trans hlimit, hfull, hnone,
          (hfill.trans hfill').congr (hfirst k (by omega))⟩
    · rw [addPages, hadd]
      refine .inr ⟨i, s, Nat.le_refl i, by omega, rfl, rfl, hfull, hnone, ?_⟩
      refine (Flat.fills_false _).congr fun a => ⟨nofun, ?_⟩
      rintro ⟨j, hij, hj, -⟩
      omega

/-- Memory `s'` is `s` after mapping a range ended at `page`, for which there was no room. -/
structure Refused (s : SparseSpace) (range : Range) (page : UInt64) (s' : SparseSpace) : Prop where
  exhausted : s'.Exhausted
  isBase : pageBase page = page
  meets : range.Meets page
  missing : byte? s' page = none
  /-- The pages before the refused one were added. -/
  fills : Flat.Fills (fun a => range.Meets a ∧ a < page) (byte? s) (byte? s')

/-- Mapping a range adds the pages that it meets, or those before one for which there is no room. -/
theorem map_cases (s : SparseSpace) (h : range.start ≤ range.stop) :
    (∃ s', s.map range = (.ok (), s') ∧ s'.limit = s.limit ∧ byte? s' = Flat.map (byte? s) range) ∨
    ∃ page s', s.map range = (.error (.mapFailed page), s') ∧ s'.limit = s.limit ∧
      Refused s range page s' := by
  have hrun := pages_eq h
  set run := touched range.start (range.stop.toNat - range.start.toNat)
  rw [map, hrun]
  rcases addPages_cases s run run.count.toNat 0 with ⟨s', hmap, hlimit, hfill⟩ |
    ⟨k, s', -, hk, hmap, hlimit, hfull, hnone, hfill⟩
  · refine .inl ⟨s', hmap, hlimit, (hfill.congr fun a => ?_).eq_map⟩
    rw [← exists_base_iff_meets h hrun a]
    simp
  · rw [Nat.zero_add] at hk
    have hbase := pageBase_base h hrun hk
    refine .inr ⟨run.base k, s', hmap, hlimit, hfull, hbase, ?_, hnone _ hbase,
      hfill.congr fun a => ?_⟩
    · exact (exists_base_iff_meets h hrun _).1 ⟨k, hk, hbase.symm⟩
    · rw [← exists_base_lt_iff h hrun hk a]
      simp

theorem mapping_of_ok (h : s.map range = (.ok (), s')) :
    (AddressSpace.map range : Action _ _ Unit) s = ⟨.ok (), s', []⟩ := by
  simp only [AddressSpace.map, Action.ofResult, h]

theorem mapping_of_error {e : MemoryError} (h : s.map range = (.error e, s')) :
    (AddressSpace.map range : Action _ _ Unit) s = ⟨.error e, s', []⟩ := by
  simp only [AddressSpace.map, Action.ofResult, h]

/-- Mapping leaves alone what is there, even if the range is not one. -/
theorem frame_mapping (P : UInt64 → Prop) (s : SparseSpace) (range : Range) :
    Flat.Frame P (byte? s) (byte? ((AddressSpace.map range : Action _ _ Unit) s).state) := by
  by_cases h : range.start ≤ range.stop
  · rcases s.map_cases h with ⟨s', hmap, -, hbytes⟩ | ⟨page, s', hmap, -, hrefused⟩
    · rw [mapping_of_ok hmap, hbytes]
      exact Flat.frame_map P _ range
    · rw [mapping_of_error hmap]
      exact hrefused.fills.frame P
  · have hmap : s.map range = (.error (.badRange range.start range.stop), s) := by
      rw [map, Memory.pages, if_pos (UInt64.not_le.1 h)]
    rw [mapping_of_error hmap]
    exact .refl P _

/-- The word that memory holds is read. -/
theorem readWord_of_holds {addr word : UInt64} (h : Holds s addr.toNat (Word.toBytes word))
    (hfit : addr.toNat + 8 ≤ 0x10000000000000000) : s.readWord addr = .ok word := by
  have hbytes := copyOut_of_holds h (by rwa [Word.size_toBytes])
  rw [Word.size_toBytes] at hbytes
  rw [readWord, read, hbytes, Except.map, Word.ofBytes_toBytes]

/-! ### Writing -/

theorem writing_of_ok {addr : UInt64} {source : Array UInt8} (h : s.write addr source = .ok s') :
    (AddressSpace.write addr source : Action _ _ Unit) s = ⟨.ok (), s', []⟩ := by
  simp only [AddressSpace.write, Action.ofResult, h]

theorem writing_of_error {addr : UInt64} {source : Array UInt8} {e : MemoryError}
    (h : s.write addr source = .error e) :
    (AddressSpace.write addr source : Action _ _ Unit) s = ⟨.error e, s, []⟩ := by
  simp only [AddressSpace.write, Action.ofResult, h]

theorem limit_copyIn (s : SparseSpace) (addr : UInt64) (source : Array UInt8) :
    (copyIn s addr source).limit = s.limit := by
  unfold copyIn
  fun_induction copyInFrom s addr source 0 with
  | case1 s done hlt place offset count next ih =>
    rw [ih]
    simp only [next]
    split <;> rfl
  | case2 => rfl

section Write

variable {addr : UInt64} {source : Array UInt8} (hfit : addr.toNat + source.size < 0x10000000000000000)

include hfit

theorem write_of_present (h : missing? s (touched addr source.size) = none) :
    s.write addr source = .ok (copyIn s addr source) := by
  have hstop : Word.advance? addr source.size = some (addr + UInt64.ofNat source.size) := if_pos hfit
  simp only [write, hstop, pages_advance? hstop, h]

theorem write_of_missing {base : UInt64} (h : missing? s (touched addr source.size) = some base) :
    s.write addr source = .error (.unmapped (max base addr)) := by
  have hstop : Word.advance? addr source.size = some (addr + UInt64.ofNat source.size) := if_pos hfit
  simp only [write, hstop, pages_advance? hstop, h]

end Write

/-- Writing replaces all bytes of a run that are there, or it names the first that is not. -/
theorem write_cases (s : SparseSpace) (addr : UInt64) (source : Array UInt8)
    (hfit : addr.toNat + source.size < 0x10000000000000000) :
    (Mapped s addr.toNat (addr.toNat + source.size) ∧ ∃ s', s.write addr source = .ok s' ∧
      s'.limit = s.limit ∧ byte? s' = Flat.write (byte? s) addr source) ∨
    ∃ a : UInt64, s.write addr source = .error (.unmapped a) ∧ addr.toNat ≤ a.toNat ∧
      a.toNat < addr.toNat + source.size ∧ byte? s a = none ∧ Mapped s addr.toNat a.toNat := by
  rcases missing?_touched_cases (s := s) (Nat.le_of_lt hfit) with
    ⟨hnone, hmapped⟩ | ⟨base, hsome, hle, hlt, hbyte, hbefore⟩
  · refine .inl ⟨hmapped, _, write_of_present hfit hnone, ?_, funext fun a => ?_⟩
    · exact limit_copyIn s addr source
    · rw [byte?_copyIn trivial (Nat.le_of_lt hfit), Flat.write]
      split
      · rename_i hin
        obtain ⟨b, hb⟩ := Option.isSome_iff_exists.1 (hmapped a hin.1 hin.2)
        have hlt : a.toNat - addr.toNat < source.size := by omega
        simp [hb, Array.getD, hlt]
      · rfl
  · exact .inr ⟨max base addr, write_of_missing hfit hsome, hle, hlt, hbyte, hbefore⟩

theorem write_of_wraps {addr : UInt64} {source : Array UInt8}
    (h : 0x10000000000000000 ≤ addr.toNat + source.size) :
    s.write addr source = .error (.badRange addr Word.max) := by
  rw [write, Word.advance?, if_neg (Nat.not_lt.2 h)]

/-- Writing leaves alone what is not in its run. -/
theorem frame_writing (s : SparseSpace) (addr : UInt64) (source : Array UInt8) :
    Flat.Frame (fun a => addr.toNat ≤ a.toNat ∧ a.toNat < addr.toNat + source.size) (byte? s)
      (byte? ((AddressSpace.write addr source : Action _ _ Unit) s).state) := by
  by_cases hfit : addr.toNat + source.size < 0x10000000000000000
  · rcases s.write_cases addr source hfit with ⟨-, s', hwrite, -, hbytes⟩ | ⟨a, hwrite, -⟩
    · rw [writing_of_ok hwrite, hbytes]
      exact fun a ha => .inl (if_neg ha)
    · rw [writing_of_error hwrite]
      exact .refl _ _
  · rw [writing_of_error (write_of_wraps (Nat.not_lt.1 hfit))]
    exact .refl _ _

end SparseSpace

end EnvKernel.Memory
