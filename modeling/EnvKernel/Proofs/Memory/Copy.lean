import EnvKernel.Proofs.Memory.Sparse

/-!
Reading from a flat memory, and the copy loops behind it. `Flat.read` gives all bytes of a run or names
the first one that is missing; `copyOut_eq_read` says that copying out page by page comes to the same. A
round of a copy ends at the end of a page or of the run, so one round for each page is enough:
`copyOutWithin_eq`, `copyInWithin_eq`.
-/

namespace EnvKernel.Memory

variable {m : Flat} {addr a : UInt64} {len : Nat}

/-! ### Runs of addresses -/

/-- The addresses of a run, as far as there are addresses. -/
def places (addr : UInt64) (len : Nat) : List UInt64 :=
  (List.range (min len (0x10000000000000000 - addr.toNat))).map fun i => addr + UInt64.ofNat i

theorem toNat_place {i : Nat} (h : addr.toNat + i < 0x10000000000000000) :
    (addr + UInt64.ofNat i).toNat = addr.toNat + i := by
  rw [UInt64.toNat_add, UInt64.toNat_ofNat']
  omega

theorem length_places (addr : UInt64) (len : Nat) :
    (places addr len).length = min len (0x10000000000000000 - addr.toNat) := by
  simp [places]

theorem toNat_getElem_places {i : Nat} (h : i < (places addr len).length) :
    (places addr len)[i].toNat = addr.toNat + i := by
  have hlength := length_places addr len
  have haddr := addr.toNat_lt
  simp only [places, List.getElem_map, List.getElem_range]
  exact toNat_place (by omega)

/-- An address of a run by its place. -/
theorem getElem_places (hle : addr.toNat ≤ a.toNat) (hlt : a.toNat < addr.toNat + len) :
    ∃ h : a.toNat - addr.toNat < (places addr len).length, (places addr len)[a.toNat - addr.toNat] = a := by
  have ha := a.toNat_lt
  have h : a.toNat - addr.toNat < (places addr len).length := by
    rw [length_places]
    omega
  refine ⟨h, UInt64.toNat_inj.1 ?_⟩
  rw [toNat_getElem_places h]
  omega

theorem mem_places : a ∈ places addr len ↔ addr.toNat ≤ a.toNat ∧ a.toNat < addr.toNat + len := by
  constructor
  · intro h
    obtain ⟨i, hi, rfl⟩ := List.getElem_of_mem h
    rw [toNat_getElem_places hi]
    rw [length_places] at hi
    omega
  · rintro ⟨hle, hlt⟩
    obtain ⟨h, heq⟩ := getElem_places hle hlt
    exact heq ▸ List.getElem_mem h

namespace Flat

/-- The first address of a run at which there is no byte. -/
def missing? (m : Flat) (addr : UInt64) (len : Nat) : Option UInt64 :=
  (places addr len).find? fun a => (m a).isNone

/-- The bytes of a run, if they are all there. A run that goes on behind the last address is not. -/
def read (m : Flat) (addr : UInt64) (len : Nat) : Except MemoryError (Array UInt8) :=
  match m.missing? addr len with
  | some a => .error (.unmapped a)
  | none =>
    if addr.toNat + len ≤ 0x10000000000000000 then .ok ((places addr len).map fun a => (m a).getD 0).toArray
    else .error (.unmapped addr)

theorem missing?_eq_none_iff : m.missing? addr len = none ↔
    ∀ a : UInt64, addr.toNat ≤ a.toNat → a.toNat < addr.toNat + len → (m a).isSome = true := by
  rw [missing?, List.find?_eq_none]
  constructor
  · intro h a hle hlt
    simpa [Option.isSome_iff_ne_none] using h a (mem_places.2 ⟨hle, hlt⟩)
  · intro h a ha
    obtain ⟨hle, hlt⟩ := mem_places.1 ha
    simpa [Option.isSome_iff_ne_none] using h a hle hlt

/-- The first address at which there is no byte is the lowest one. -/
theorem missing?_eq_some_iff : m.missing? addr len = some a ↔
    (addr.toNat ≤ a.toNat ∧ a.toNat < addr.toNat + len) ∧ m a = none ∧
      ∀ b : UInt64, addr.toNat ≤ b.toNat → b.toNat < a.toNat → (m b).isSome = true := by
  rw [missing?, List.find?_eq_some_iff_getElem]
  constructor
  · rintro ⟨hnone, i, hi, rfl, hbefore⟩
    have hplace := toNat_getElem_places hi
    refine ⟨mem_places.1 (List.getElem_mem hi), by simpa using hnone, fun b hle hlt => ?_⟩
    have hend : b.toNat < addr.toNat + len := Nat.lt_trans hlt (mem_places.1 (List.getElem_mem hi)).2
    obtain ⟨hb, heq⟩ := getElem_places hle hend
    have hthere := hbefore (b.toNat - addr.toNat) (by omega)
    rw [heq] at hthere
    simpa [Option.isSome_iff_ne_none] using hthere
  · rintro ⟨⟨hle, hlt⟩, hnone, hbefore⟩
    obtain ⟨h, heq⟩ := getElem_places hle hlt
    refine ⟨by simp [hnone], _, h, heq, fun j hj => ?_⟩
    have hplace := toNat_getElem_places (Nat.lt_trans hj h)
    simp [hbefore _ (by rw [hplace]; omega) (by rw [hplace]; omega)]

end Flat

/-! ### Copying out -/

variable {σ : Type} [PageStore σ] {s : σ} {copied : Array UInt8}

/-- Copying out ends at the first byte that is missing. -/
theorem copyOutFrom_of_missing {done : Nat} (hdone : addr.toNat + done ≤ a.toNat)
    (hlt : a.toNat < addr.toNat + len) (hnone : byte? s a = none) (hbefore : Mapped s addr.toNat a.toNat) :
    copyOutFrom s addr len done copied = .error (.unmapped a) := by
  have ha := a.toNat_lt
  fun_induction copyOutFrom s addr len done copied with
  | case1 done copied hmore hplace =>
    rw [Word.advance?, if_pos (by omega)] at hplace
    cases hplace
  | case2 done copied hmore place hplace hpage =>
    have hvalue := Word.toNat_advance? hplace
    have hmissing : ¬ (byte? s place).isSome = true := by
      rw [isSome_byte?, hpage]
      exact Bool.false_ne_true
    have hge : ¬ place.toNat < a.toNat := fun h => hmissing (hbefore place (by omega) h)
    rw [UInt64.toNat_inj.1 (show place.toNat = a.toNat by omega)]
  | case3 done copied hmore place hplace page hpage offset count ih =>
    have hvalue := Word.toNat_advance? hplace
    have hoffset : offset = place.toNat % 4096 := rfl
    have hcount : count = min (4096 - offset) (len - done) := rfl
    -- the page is there, so the missing byte lies behind it
    have hpages : ¬ a.toNat / 4096 = place.toNat / 4096 := by
      intro h
      rw [← Option.not_isSome_iff_eq_none, isSome_byte?, pageBase_eq_iff.2 h, hpage] at hnone
      exact hnone rfl
    exact ih (by omega)
  | case4 done copied hless => omega

/-- A run that goes on behind the last address is refused there, if not before. -/
theorem copyOutFrom_of_wraps {done : Nat} (hdone : addr.toNat + done ≤ 0x10000000000000000)
    (hwraps : 0x10000000000000000 < addr.toNat + len) (hmapped : Mapped s addr.toNat 0x10000000000000000) :
    copyOutFrom s addr len done copied = .error (.unmapped addr) := by
  fun_induction copyOutFrom s addr len done copied with
  | case1 done copied hmore hplace => rfl
  | case2 done copied hmore place hplace hpage =>
    have hthere := hmapped place (by rw [Word.toNat_advance? hplace]; omega) place.toNat_lt
    rw [isSome_byte?, hpage] at hthere
    cases hthere
  | case3 done copied hmore place hplace page hpage offset count ih =>
    have hvalue := Word.toNat_advance? hplace
    have hplace := place.toNat_lt
    have hoffset : offset = place.toNat % 4096 := rfl
    have hcount : count = min (4096 - offset) (len - done) := rfl
    exact ih (by omega)
  | case4 done copied hless => omega

/-- Copying out page by page is reading. -/
theorem copyOut_eq_read (s : σ) (addr : UInt64) (len : Nat) :
    copyOut s addr len = Flat.read (byte? s) addr len := by
  have haddr := addr.toNat_lt
  rw [Flat.read]
  cases hmissing : Flat.missing? (byte? s) addr len with
  | some a =>
    obtain ⟨⟨hle, hlt⟩, hnone, hbefore⟩ := Flat.missing?_eq_some_iff.1 hmissing
    exact copyOutFrom_of_missing hle hlt hnone hbefore
  | none =>
    have hmapped := Flat.missing?_eq_none_iff.1 hmissing
    dsimp only
    split
    · rename_i hfit
      set bytes := ((places addr len).map fun a => (byte? s a).getD 0).toArray with hbytes
      have hsize : bytes.size = len := by
        rw [hbytes, List.size_toArray, List.length_map, length_places]
        omega
      have hholds : Holds s addr.toNat bytes := by
        intro a hle hlt
        rw [hsize] at hlt
        obtain ⟨b, hb⟩ := Option.isSome_iff_exists.1 (hmapped a hle hlt)
        obtain ⟨h, heq⟩ := getElem_places hle hlt
        simp [Array.getD, hbytes, heq, hb, h]
      rw [← hsize] at hfit ⊢
      exact copyOut_of_holds hholds hfit
    · exact copyOutFrom_of_wraps (by omega) (by omega) fun a hle _ => hmapped a hle (by omega)

/-! ### Rounds -/

/-- Copying out from place `done` on, given up after some rounds. -/
def copyOutWithin (s : σ) (addr : UInt64) (len : Nat) :
    Nat → Nat → Array UInt8 → Option (Except MemoryError (Array UInt8))
  | 0, done, copied => if done < len then none else some (.ok copied)
  | rounds + 1, done, copied =>
    if done < len then
      match Word.advance? addr done with
      | none => some (.error (.unmapped addr))
      | some place =>
        match PageStore.page? s (pageBase place) with
        | none => some (.error (.unmapped place))
        | some page =>
          let offset := pageOffset place
          let count := min (4096 - offset) (len - done)
          copyOutWithin s addr len rounds (done + count)
            (copied ++ page.toArray.extract offset (offset + count))
    else some (.ok copied)

/-- Copying in from place `done` on, given up after some rounds. -/
def copyInWithin (addr : UInt64) (source : Array UInt8) : Nat → σ → Nat → Option σ
  | 0, s, done => if done < source.size then none else some s
  | rounds + 1, s, done =>
    if done < source.size then
      let place := addr + UInt64.ofNat done
      let offset := pageOffset place
      let count := min (4096 - offset) (source.size - done)
      let next :=
        match PageStore.page? s (pageBase place) with
        | some page => PageStore.setPage s (pageBase place) (page.splice offset source done count)
        | none => s
      copyInWithin addr source rounds next (done + count)
    else some s

/-- A round that does not end the copy reaches the end of a page, so one page less is to be copied. -/
theorem rounds_le {start done rounds : Nat}
    (h : done < len → (start + done) % 4096 + (len - done) ≤ 4096 * (rounds + 1)) (hmore : done < len)
    (hnext : done + min (4096 - (start + done) % 4096) (len - done) < len) :
    (start + (done + min (4096 - (start + done) % 4096) (len - done))) % 4096 +
      (len - (done + min (4096 - (start + done) % 4096) (len - done))) ≤ 4096 * rounds := by
  have hfirst := h hmore
  omega

theorem copyOutWithin_eq (s : σ) (addr : UInt64) (rounds done : Nat) (copied : Array UInt8)
    (h : done < len → (addr.toNat + done) % 4096 + (len - done) ≤ 4096 * rounds) :
    copyOutWithin s addr len rounds done copied = some (copyOutFrom s addr len done copied) := by
  induction rounds generalizing done copied with
  | zero =>
    have hdone : ¬ done < len := fun hmore => by have := h hmore; omega
    rw [copyOutWithin, copyOutFrom, if_neg hdone, if_neg hdone]
  | succ rounds ih =>
    rw [copyOutWithin, copyOutFrom]
    by_cases hmore : done < len
    · rw [if_pos hmore, if_pos hmore]
      cases hplace : Word.advance? addr done with
      | none => rfl
      | some place =>
        have hoffset : pageOffset place = (addr.toNat + done) % 4096 := by
          rw [pageOffset, Word.toNat_advance? hplace]
        dsimp only
        cases PageStore.page? s (pageBase place) with
        | none => rfl
        | some page =>
          rw [hoffset]
          exact ih _ _ (rounds_le h hmore)
    · rw [if_neg hmore, if_neg hmore]

theorem copyInWithin_eq (s : σ) (addr : UInt64) (source : Array UInt8) (rounds done : Nat)
    (h : done < source.size → (addr.toNat + done) % 4096 + (source.size - done) ≤ 4096 * rounds) :
    copyInWithin addr source rounds s done = some (copyInFrom s addr source done) := by
  induction rounds generalizing s done with
  | zero =>
    have hdone : ¬ done < source.size := fun hmore => by have := h hmore; omega
    rw [copyInWithin, copyInFrom, if_neg hdone, if_neg hdone]
  | succ rounds ih =>
    rw [copyInWithin, copyInFrom]
    by_cases hmore : done < source.size
    · have hoffset : pageOffset (addr + UInt64.ofNat done) = (addr.toNat + done) % 4096 := by
        rw [pageOffset, UInt64.toNat_add, UInt64.toNat_ofNat']
        omega
      rw [if_pos hmore, if_pos hmore]
      dsimp only
      rw [hoffset]
      exact ih _ _ (rounds_le h hmore)
    · rw [if_neg hmore, if_neg hmore]

end EnvKernel.Memory
