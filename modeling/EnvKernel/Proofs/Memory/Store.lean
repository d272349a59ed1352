import EnvKernel.Machine.Basic
import EnvKernel.Proofs.Memory.Page

/-!
Memory as a flat run of bytes. Bytes are copied in and out page by page; `byte?_copyIn` says that the
result is that every byte of the run is replaced, where there is one, and no other, and
`copyOut_of_holds` that the bytes of a run come out as they lie there. This needs pages that do not
share bytes, which is what the laws of `LawfulPageStore` are about.
-/

namespace EnvKernel.Memory

/-- A store whose pages can be replaced one by one, as long as they are separate. -/
class LawfulPageStore (σ : Type) [PageStore σ] where
  /-- No two pages share their bytes. -/
  Separate : σ → Prop
  separate_setPage {s : σ} {base : UInt64} {old : Page} (page : Page) :
    Separate s → PageStore.page? s base = some old → Separate (PageStore.setPage s base page)
  page?_setPage {s : σ} {base : UInt64} {old : Page} (page : Page) (other : UInt64) :
    Separate s → PageStore.page? s base = some old →
      PageStore.page? (PageStore.setPage s base page) other =
        if other = base then some page else PageStore.page? s other

export LawfulPageStore (Separate separate_setPage page?_setPage)

/-! ### Bytes and pages -/

theorem getD_splice {page : Page} {offset start count k : Nat} {source : Array UInt8} (hk : k < 4096)
    (hcount : start + count ≤ source.size) :
    (page.splice offset source start count).toArray.getD k 0 =
      if offset ≤ k ∧ k < offset + count then source.getD (start + (k - offset)) 0
      else page.toArray.getD k 0 := by
  have hget : (page.splice offset source start count).toArray.getD k 0 =
      (page.splice offset source start count)[k] := by simp [Array.getD, hk]
  have hpage : page.toArray.getD k 0 = page[k] := by simp [Array.getD, hk]
  rw [hget, hpage, Page.splice, Vector.getElem_ofFn]
  dsimp only
  split
  · have hlt : start + (k - offset) < source.size := by omega
    simp [Array.getD, hlt]
  · rfl

variable {σ : Type} [PageStore σ] {s t : σ} {addr : UInt64}

/-- Every byte from address number `start` up to `stop` is there. -/
def Mapped (s : σ) (start stop : Nat) : Prop :=
  ∀ a : UInt64, start ≤ a.toNat → a.toNat < stop → (byte? s a).isSome = true

theorem Mapped.mono {start stop start' stop' : Nat} (h : Mapped s start stop) (hstart : start ≤ start')
    (hstop : stop' ≤ stop) : Mapped s start' stop' :=
  fun a hle hlt => h a (Nat.le_trans hstart hle) (Nat.lt_of_lt_of_le hlt hstop)

theorem Mapped.congr {start stop : Nat} (h : Mapped s start stop)
    (hsame : ∀ a : UInt64, (byte? t a).isSome = (byte? s a).isSome) : Mapped t start stop :=
  fun a hle hlt => (hsame a).trans (h a hle hlt)

/-- The page that an access needs is there if its byte is. -/
theorem isSome_byte? {a : UInt64} : (byte? s a).isSome = (PageStore.page? s (pageBase a)).isSome := by
  rw [byte?, Option.isSome_map]

/-- The first page for which `p` holds, if there is one: it holds for no page before. -/
theorem findFrom_cases (run : PageRun) (p : UInt64 → Bool) (count i : Nat) :
    (run.findFrom p count i = none ∧ ∀ j, i ≤ j → j < i + count → p (run.base j) = false) ∨
      ∃ k, i ≤ k ∧ k < i + count ∧ run.findFrom p count i = some (run.base k) ∧
        p (run.base k) = true ∧ ∀ j, i ≤ j → j < k → p (run.base j) = false := by
  induction count generalizing i with
  | zero => exact .inl ⟨rfl, fun j hij hj => absurd hj (by omega)⟩
  | succ count ih =>
    rw [PageRun.findFrom]
    cases hi : p (run.base i) with
    | true => exact .inr ⟨i, Nat.le_refl i, by omega, rfl, hi, fun j hij hj => absurd hj (by omega)⟩
    | false =>
      have hnext : ∀ j, i ≤ j → (i + 1 ≤ j → p (run.base j) = false) → p (run.base j) = false := by
        intro j hij hj
        rcases Nat.eq_or_lt_of_le hij with rfl | hlt
        · exact hi
        · exact hj hlt
      rcases ih (i + 1) with ⟨hnone, hall⟩ | ⟨k, hik, hk, hsome, hp, hall⟩
      · exact .inl ⟨hnone, fun j hij hj => hnext j hij fun hlt => hall j hlt (by omega)⟩
      · exact .inr ⟨k, by omega, by omega, hsome, hp, fun j hij hj =>
          hnext j hij fun hlt => hall j hlt hj⟩

theorem findFrom_congr {run : PageRun} {p q : UInt64 → Bool} {count i : Nat}
    (h : ∀ j, i ≤ j → j < i + count → p (run.base j) = q (run.base j)) :
    run.findFrom p count i = run.findFrom q count i := by
  induction count generalizing i with
  | zero => rfl
  | succ count ih =>
    rw [PageRun.findFrom, PageRun.findFrom, h i (Nat.le_refl i) (by omega),
      ih fun j hij hj => h j (by omega) (by omega)]

/-- A page that is found is one of the run. -/
theorem exists_base_of_find? {run : PageRun} {p : UInt64 → Bool} {base : UInt64}
    (h : run.find? p = some base) : ∃ j < run.count.toNat, run.base j = base := by
  rw [PageRun.find?] at h
  rcases findFrom_cases run p run.count.toNat 0 with ⟨hnone, -⟩ | ⟨k, -, hk, hsome, -⟩
  · rw [hnone] at h
    cases h
  · rw [hsome, Option.some.injEq] at h
    exact ⟨k, by omega, h⟩

section Touched

variable {len : Nat} (hfit : addr.toNat + len ≤ 0x10000000000000000)

include hfit

/-- Every byte of an access lies on one of the pages that it touches. -/
theorem exists_base_of_mem {a : UInt64} (hle : addr.toNat ≤ a.toNat) (hlt : a.toNat < addr.toNat + len) :
    ∃ j < (touched addr len).count.toNat, (touched addr len).base j = pageBase a := by
  rw [exists_base_iff hfit (Nat.le_refl _), toNat_count_touched hfit]
  split <;> omega

/-- The first byte of an access on a page that it touches. -/
theorem max_base_mem {j : Nat} (hj : j < (touched addr len).count.toNat) :
    addr.toNat ≤ (max ((touched addr len).base j) addr).toNat ∧
      (max ((touched addr len).base j) addr).toNat < addr.toNat + len ∧
      pageBase (max ((touched addr len).base j) addr) = (touched addr len).base j := by
  have hbase := toNat_base_touched hfit hj
  rw [toNat_count_touched hfit] at hj
  rw [← UInt64.toNat_inj, toNat_pageBase, Word.toNat_max, hbase]
  split at hj <;> omega

/-- No page is missing where every byte is there, and otherwise it is the one of the first byte that is
not. -/
theorem missing?_touched_cases :
    (missing? s (touched addr len) = none ∧ Mapped s addr.toNat (addr.toNat + len)) ∨
      ∃ base, missing? s (touched addr len) = some base ∧ addr.toNat ≤ (max base addr).toNat ∧
        (max base addr).toNat < addr.toNat + len ∧ byte? s (max base addr) = none ∧
        Mapped s addr.toNat (max base addr).toNat := by
  have hpage : ∀ a : UInt64, (PageStore.page? s (pageBase a)).isNone = false →
      (byte? s a).isSome = true := by
    intro a ha
    rw [isSome_byte?]
    simpa using ha
  rcases findFrom_cases (touched addr len) (fun base => (PageStore.page? s base).isNone)
    (touched addr len).count.toNat 0 with ⟨hnone, hall⟩ | ⟨k, -, hk, hsome, hmissing, hall⟩
  · refine .inl ⟨hnone, fun a hle hlt => hpage a ?_⟩
    obtain ⟨j, hj, hbase⟩ := exists_base_of_mem hfit hle hlt
    rw [← hbase]
    exact hall j (Nat.zero_le j) (by omega)
  · rw [Nat.zero_add] at hk
    obtain ⟨hle, hlt, hbase⟩ := max_base_mem hfit hk
    refine .inr ⟨_, hsome, hle, hlt, ?_, fun a hfirst hlast => hpage a ?_⟩
    · rw [← Option.not_isSome_iff_eq_none, isSome_byte?, hbase]
      simpa using hmissing
    · obtain ⟨j, hj, hat⟩ := exists_base_of_mem hfit hfirst (by omega)
      rw [← hat]
      refine hall j (Nat.zero_le j) (Nat.lt_of_not_le fun hkj => ?_)
      -- a page from number `k` on begins at or behind the first byte that is not there
      have hpage := toNat_base_touched hfit hj
      rw [hat, toNat_pageBase] at hpage
      rw [Word.toNat_max, toNat_base_touched hfit hk] at hlast
      omega

/-- No page is missing where every byte is there. -/
theorem missing?_touched (h : Mapped s addr.toNat (addr.toNat + len)) :
    missing? s (touched addr len) = none := by
  rcases missing?_touched_cases (s := s) hfit with ⟨hnone, -⟩ | ⟨base, -, hle, hlt, hbyte, -⟩
  · exact hnone
  · have hthere := h _ hle hlt
    rw [hbyte] at hthere
    cases hthere

end Touched

/-! ### Copying out -/

/-- The bytes lie in memory from address number `start` on. -/
def Holds (s : σ) (start : Nat) (bytes : Array UInt8) : Prop :=
  ∀ a : UInt64, start ≤ a.toNat → a.toNat < start + bytes.size →
    byte? s a = some (bytes.getD (a.toNat - start) 0)

variable {bytes : Array UInt8}

/-- The part of a page that belongs to a run. -/
theorem Holds.extract_page (h : Holds s addr.toNat bytes) {place : UInt64} {page : Page} {done count : Nat}
    (hplace : place.toNat = addr.toNat + done) (hpage : PageStore.page? s (pageBase place) = some page)
    (hcount : done + count ≤ bytes.size) (hfit : pageOffset place + count ≤ 4096) :
    page.toArray.extract (pageOffset place) (pageOffset place + count) =
      bytes.extract done (done + count) := by
  have hoffset : pageOffset place = place.toNat % 4096 := rfl
  have hlt := place.toNat_lt
  apply Array.ext
  · simp only [Array.size_extract, Vector.size_toArray]
    omega
  · intro k hk _
    simp only [Array.size_extract, Vector.size_toArray] at hk
    have ha : (UInt64.ofNat (place.toNat + k)).toNat = place.toNat + k := by
      rw [UInt64.toNat_ofNat', Nat.mod_eq_of_lt]
      omega
    have hsame : pageBase (UInt64.ofNat (place.toNat + k)) = pageBase place :=
      pageBase_eq_iff.2 (by omega)
    have hbyte := h (UInt64.ofNat (place.toNat + k)) (by omega) (by omega)
    have hat : pageOffset (UInt64.ofNat (place.toNat + k)) = pageOffset place + k := by
      rw [pageOffset, ha]
      omega
    have hin : pageOffset place + k < page.toArray.size := by
      rw [Vector.size_toArray]
      omega
    have hsource : done + k < bytes.size := by omega
    rw [byte?, hsame, hpage, Option.map_some, hat, Option.some.injEq, ha,
      show place.toNat + k - addr.toNat = done + k by omega] at hbyte
    rw [Array.getElem_extract, Array.getElem_extract]
    simp only [Array.getD, hin, hsource, dif_pos] at hbyte
    exact hbyte

theorem copyOutFrom_of_holds (h : Holds s addr.toNat bytes)
    (hfit : addr.toNat + bytes.size ≤ 0x10000000000000000) (done : Nat) (hdone : done ≤ bytes.size) :
    copyOutFrom s addr bytes.size done (bytes.extract 0 done) = .ok bytes := by
  generalize hcopied : bytes.extract 0 done = copied
  fun_induction copyOutFrom s addr bytes.size done copied with
  | case1 done copied hlt hplace =>
    rw [Word.advance?, if_pos (by omega)] at hplace
    cases hplace
  | case2 done copied hlt place hplace hpage =>
    have hvalue := Word.toNat_advance? hplace
    have hbyte := h place (by omega) (by omega)
    rw [byte?, hpage] at hbyte
    cases hbyte
  | case3 done copied hlt place hplace page hpage offset count ih =>
    have hoffset : pageOffset place = place.toNat % 4096 := rfl
    have hcount : count = min (4096 - pageOffset place) (bytes.size - done) := rfl
    refine ih (by omega) ?_
    rw [h.extract_page (Word.toNat_advance? hplace) hpage (by omega) (by omega), ← hcopied,
      Array.extract_append_extract]
    congr 1
    omega
  | case4 done copied hge =>
    rw [← hcopied, show done = bytes.size by omega, Array.extract_size]

/-- The bytes that memory holds come out. -/
theorem copyOut_of_holds (h : Holds s addr.toNat bytes)
    (hfit : addr.toNat + bytes.size ≤ 0x10000000000000000) : copyOut s addr bytes.size = .ok bytes := by
  have hall := copyOutFrom_of_holds h hfit 0 (Nat.zero_le _)
  rwa [Array.extract_zero] at hall

/-! ### Copying in -/

variable [LawfulPageStore σ] {source : Array UInt8}

/-- Storing bytes on a page that is there replaces them and no others. -/
theorem byte?_splice {page : Page} {place : UInt64} {start count : Nat} (hs : Separate s)
    (hpage : PageStore.page? s (pageBase place) = some page) (hcount : start + count ≤ source.size)
    (hfit : pageOffset place + count ≤ 4096) (a : UInt64) :
    byte? (PageStore.setPage s (pageBase place) (page.splice (pageOffset place) source start count)) a =
      if place.toNat ≤ a.toNat ∧ a.toNat < place.toNat + count
      then some (source.getD (start + (a.toNat - place.toNat)) 0)
      else byte? s a := by
  have hplace : pageOffset place = place.toNat % 4096 := rfl
  have ha : pageOffset a = a.toNat % 4096 := rfl
  rw [byte?, page?_setPage _ _ hs hpage]
  by_cases hsame : pageBase a = pageBase place
  · have hnumber := pageBase_eq_iff.1 hsame
    rw [if_pos hsame, Option.map_some, getD_splice (by omega) hcount, byte?, hsame, hpage,
      Option.map_some]
    by_cases hin : place.toNat ≤ a.toNat ∧ a.toNat < place.toNat + count
    · have hindex : pageOffset a - pageOffset place = a.toNat - place.toNat := by omega
      rw [if_pos hin, if_pos (by omega), hindex]
    · rw [if_neg hin, if_neg (by omega)]
  · have hnumber := mt pageBase_eq_iff.2 hsame
    rw [if_neg hsame, if_neg (by omega), byte?]

/-- One page of a copy: the bytes of the page are replaced if it is there. -/
theorem copyPage_spec (place : UInt64) (start count : Nat) (hs : Separate s)
    (hcount : start + count ≤ source.size) (hfit : pageOffset place + count ≤ 4096) :
    let next :=
      match PageStore.page? s (pageBase place) with
      | some page =>
        PageStore.setPage s (pageBase place) (page.splice (pageOffset place) source start count)
      | none => s
    Separate next ∧ ∀ a : UInt64, byte? next a =
      if place.toNat ≤ a.toNat ∧ a.toNat < place.toNat + count
      then (byte? s a).map fun _ => source.getD (start + (a.toNat - place.toNat)) 0
      else byte? s a := by
  have hplace : pageOffset place = place.toNat % 4096 := rfl
  have hbyte : ∀ a : UInt64, place.toNat ≤ a.toNat ∧ a.toNat < place.toNat + count →
      byte? s a = (PageStore.page? s (pageBase place)).map fun page =>
        page.toArray.getD (pageOffset a) 0 := by
    intro a ha
    have hsame : pageBase a = pageBase place := pageBase_eq_iff.2 (by omega)
    rw [byte?, hsame]
  cases hpage : PageStore.page? s (pageBase place) with
  | none =>
    dsimp only
    refine ⟨hs, fun a => ?_⟩
    split
    · rename_i ha
      rw [hbyte a ha, hpage, Option.map_none, Option.map_none]
    · rfl
  | some page =>
    dsimp only
    refine ⟨separate_setPage _ hs hpage, fun a => ?_⟩
    rw [byte?_splice hs hpage hcount hfit]
    split
    · rename_i ha
      rw [hbyte a ha, hpage, Option.map_some, Option.map_some]
    · rfl

theorem copyInFrom_spec (s : σ) (hs : Separate s) (source : Array UInt8) (done : Nat)
    (hdone : done ≤ source.size) (hfit : addr.toNat + source.size ≤ 0x10000000000000000) :
    Separate (copyInFrom s addr source done) ∧ ∀ a : UInt64,
      byte? (copyInFrom s addr source done) a =
        if addr.toNat + done ≤ a.toNat ∧ a.toNat < addr.toNat + source.size
        then (byte? s a).map fun _ => source.getD (a.toNat - addr.toNat) 0
        else byte? s a := by
  fun_induction copyInFrom s addr source done with
  | case1 s done hlt place offset count next ih =>
    have hplace : place.toNat = addr.toNat + done := by
      show (addr + UInt64.ofNat done).toNat = _
      rw [UInt64.toNat_add, UInt64.toNat_ofNat']
      omega
    have hoffset : pageOffset place = place.toNat % 4096 := rfl
    have hcount : count = min (4096 - pageOffset place) (source.size - done) := rfl
    obtain ⟨hsep, hpage⟩ : Separate next ∧ ∀ a : UInt64, byte? next a = _ :=
      copyPage_spec place done count hs (by omega) (by omega)
    obtain ⟨hsep, hrest⟩ := ih hsep (by omega)
    refine ⟨hsep, fun a => ?_⟩
    rw [hrest, hpage]
    by_cases hin : place.toNat ≤ a.toNat ∧ a.toNat < place.toNat + count
    · have hindex : done + (a.toNat - place.toNat) = a.toNat - addr.toNat := by omega
      rw [if_neg (by omega), if_pos hin, if_pos (by omega), hindex]
    · rw [if_neg hin]
      by_cases hlater : addr.toNat + done ≤ a.toNat ∧ a.toNat < addr.toNat + source.size
      · rw [if_pos (by omega), if_pos hlater]
      · rw [if_neg (by omega), if_neg hlater]
  | case2 s done hge =>
    refine ⟨hs, fun a => ?_⟩
    rw [if_neg (by omega)]

section CopyIn

variable (hs : Separate s) (hfit : addr.toNat + source.size ≤ 0x10000000000000000)

include hs hfit

theorem separate_copyIn : Separate (copyIn s addr source) :=
  (copyInFrom_spec s hs source 0 (Nat.zero_le _) hfit).1

/-- Copying in replaces the bytes of the run that are there, and no others. -/
theorem byte?_copyIn (a : UInt64) : byte? (copyIn s addr source) a =
    if addr.toNat ≤ a.toNat ∧ a.toNat < addr.toNat + source.size
    then (byte? s a).map fun _ => source.getD (a.toNat - addr.toNat) 0
    else byte? s a :=
  (copyInFrom_spec s hs source 0 (Nat.zero_le _) hfit).2 a

theorem isSome_byte?_copyIn (a : UInt64) :
    (byte? (copyIn s addr source) a).isSome = (byte? s a).isSome := by
  rw [byte?_copyIn hs hfit]
  split
  · rw [Option.isSome_map]
  · rfl

/-- Where every byte is there, memory holds what was copied in. -/
theorem holds_copyIn (h : Mapped s addr.toNat (addr.toNat + source.size)) :
    Holds (copyIn s addr source) addr.toNat source := by
  intro a hle hlt
  obtain ⟨b, hb⟩ := Option.isSome_iff_exists.1 (h a hle hlt)
  rw [byte?_copyIn hs hfit, if_pos ⟨hle, hlt⟩, hb, Option.map_some]

end CopyIn

/-! ### Stores that follow the laws -/

theorem getElem?_insert_page (pages : Std.TreeMap UInt64 Page) (base other : UInt64) (page : Page) :
    (pages.insert base page)[other]? = if other = base then some page else pages[other]? := by
  rw [Std.TreeMap.getElem?_insert]
  simp only [Std.LawfulEqCmp.compare_eq_iff_eq, eq_comm (a := base)]

instance : LawfulPageStore SparseSpace where
  Separate _ := True
  separate_setPage _ _ _ := trivial
  page?_setPage {s base _} page other _ _ := getElem?_insert_page s.pages base other page

/-- A page of equal bytes in a sparse space, which need not have been there before. -/
theorem byte?_setPage_fill (s : SparseSpace) (base : UInt64) (value : UInt8) (a : UInt64) :
    byte? (PageStore.setPage s base (Page.fill value)) a =
      if pageBase a = base then some value else byte? s a := by
  have hpage : PageStore.page? (PageStore.setPage s base (Page.fill value)) (pageBase a) =
      if pageBase a = base then some (Page.fill value) else PageStore.page? s (pageBase a) :=
    getElem?_insert_page s.pages base (pageBase a) (Page.fill value)
  have hoffset : pageOffset a < 4096 := Nat.mod_lt _ (by decide)
  rw [byte?, hpage]
  split
  · simp [Page.fill, Array.getD, hoffset]
  · rfl

instance : LawfulPageStore KernelMemory where
  Separate m := ∀ a b frame, m.manager.tables.frame? a = some frame →
    m.manager.tables.frame? b = some frame → a = b
  separate_setPage {m base _} page hs hpage := by
    obtain ⟨frame, hframe, -⟩ := Option.map_eq_some_iff.1 hpage
    simp only [PageStore.setPage, hframe]
    exact hs
  page?_setPage {m base _} page other hs hpage := by
    obtain ⟨frame, hframe, -⟩ := Option.map_eq_some_iff.1 hpage
    simp only [PageStore.setPage, PageStore.page?, hframe]
    cases hother : m.manager.tables.frame? other with
    | none =>
      have hne : other ≠ base := by
        rintro rfl
        rw [hframe] at hother
        cases hother
      rw [if_neg hne]
      rfl
    | some place =>
      have hiff : place = frame ↔ other = base := by
        constructor
        · rintro rfl
          exact hs other base place hother hframe
        · rintro rfl
          exact Option.some.inj (hother.symm.trans hframe)
      simp only [Option.map_some, PhysicalMemory.frame, getElem?_insert_page, hiff]
      split <;> rfl

/-- A store that is not there has no pages that could share bytes. -/
instance : LawfulPageStore (Option σ) where
  Separate s := ∀ t, s = some t → Separate t
  separate_setPage {s base old} page hs hpage := by
    cases s with
    | none => cases hpage
    | some t =>
      intro u hu
      cases hu
      exact separate_setPage page (hs t rfl) hpage
  page?_setPage {s base old} page other hs hpage := by
    cases s with
    | none => cases hpage
    | some t => exact page?_setPage (σ := σ) page other (hs t rfl) hpage

end EnvKernel.Memory
