import EnvKernel.Proofs.Program.Bind

/-!
Binding that fails. An image has no pointers exactly if one of the sections that binding looks for is not
as it should be: `pointers_eq_error_iff` says that the error is that of the first of them, in the order
of the constructors of `Unbindable`. With pointers, binding fails at the first byte of them that is not
in memory.
-/

namespace EnvKernel.Program

open Elf Env Memory

variable {binary table : Bytes} {image : Image} {sh : SectionHeader} {e : BindError} {c c' : Symbol}
  {m : Flat} {a a' : UInt64}

/-! ### Images without pointers -/

/-- The contents of the section are in the file. -/
def InFile (image : Image) (sh : SectionHeader) : Prop :=
  sh.offset.toNat + sh.size.toNat ≤ image.bytes.size

/-- The error that the contents of the section are not in the file. -/
def outside (image : Image) (sh : SectionHeader) : BindError :=
  .malformed (.outOfBounds ⟨sh.offset, sh.size, image.bytes.size⟩)

/-- The section that the file header names is a string table in the file, with the contents `table`. -/
def SectionTexts (image : Image) (table : Bytes) : Prop :=
  ∃ sh, image.sectionNames? = some sh ∧ sh.kind = .stringTable ∧ image.sectionData sh = .ok table

/-- The first section called `.bss` does not wrap. -/
def HasData (image : Image) (table : Bytes) : Prop :=
  ∃ sh, image.sectionHeaders.find? (isNamed table ".bss") = some sh ∧
    sh.addr.toNat + sh.size.toNat < 0x10000000000000000

/-- The section is a string table called `.strtab`. -/
def isSymbolTexts (table : Bytes) (sh : SectionHeader) : Bool :=
  sh.kind == .stringTable && isNamed table ".strtab" sh

/-- The first string table called `.strtab` is in the file. -/
def HasSymbolTexts (image : Image) (table : Bytes) : Prop :=
  ∃ sh, image.sectionHeaders.find? (isSymbolTexts table) = some sh ∧ InFile image sh

/-- Why an image has no pointers: the first of the sections that binding looks for which is missing or not as
it should be. -/
inductive Unbindable (image : Image) : BindError → Prop where
  | noSectionTexts (missing : ∀ sh, image.sectionNames? = some sh → sh.kind ≠ .stringTable) :
      Unbindable image .noSectionNames
  | sectionTexts {sh : SectionHeader} (header : image.sectionNames? = some sh)
      (kind : sh.kind = .stringTable) (out : ¬ InFile image sh) : Unbindable image (outside image sh)
  | noData {table : Bytes} (texts : SectionTexts image table)
      (missing : image.sectionHeaders.find? (isNamed table ".bss") = none) :
      Unbindable image .noUninitializedDataSection
  | wraps {table : Bytes} {sh : SectionHeader} (texts : SectionTexts image table)
      (first : image.sectionHeaders.find? (isNamed table ".bss") = some sh)
      (wraps : 0x10000000000000000 ≤ sh.addr.toNat + sh.size.toNat) :
      Unbindable image (.malformed (.addressOverflow sh.addr sh.size))
  | noSymbolTexts {table : Bytes} (texts : SectionTexts image table) (data : HasData image table)
      (missing : image.sectionHeaders.find? (isSymbolTexts table) = none) :
      Unbindable image .noSymbolStringTable
  | symbolTexts {table : Bytes} {sh : SectionHeader} (texts : SectionTexts image table)
      (data : HasData image table) (first : image.sectionHeaders.find? (isSymbolTexts table) = some sh)
      (out : ¬ InFile image sh) : Unbindable image (outside image sh)
  | symbols {table : Bytes} {sh : SectionHeader} (texts : SectionTexts image table)
      (data : HasData image table) (symbolTexts : HasSymbolTexts image table)
      (first : image.sectionHeaders.find? (·.kind == .symbolTable) = some sh) (out : ¬ InFile image sh) :
      Unbindable image (outside image sh)

theorem required_eq_error_iff {α : Type} {e' : BindError} {o : Option α} :
    required e' o = .error e ↔ o = none ∧ e' = e := by
  cases o <;> simp [required]

theorem inFile_iff : InFile image sh ↔ ∃ data, image.sectionData sh = .ok data := by
  constructor
  · exact fun h => ⟨_, Bytes.slice_eq_ok_iff.2 ⟨h, rfl⟩⟩
  · rintro ⟨data, h⟩
    exact (Bytes.slice_eq_ok_iff.1 h).1

theorem sectionData_eq_error_iff :
    inImage (image.sectionData sh) = .error e ↔ ¬ InFile image sh ∧ outside image sh = e := by
  cases hdata : image.sectionData sh with
  | ok data => exact iff_of_false nofun fun h => h.1 (inFile_iff.2 ⟨data, hdata⟩)
  | error err =>
    obtain ⟨hout, rfl⟩ := Bytes.slice_eq_error_iff.1 hdata
    simp [inImage, Except.mapError, InFile, outside, hout]

/-- Symbols are read if their table is in the file. -/
theorem symbols_eq_error_iff :
    inImage (image.symbols sh) = .error e ↔ ¬ InFile image sh ∧ outside image sh = e := by
  rw [← sectionData_eq_error_iff, Image.symbols]
  cases image.sectionData sh with
  | ok data => exact iff_of_false nofun nofun
  | error err => simp [inImage, Except.mapError]

theorem allSymbols_eq_error_iff : inImage (allSymbols image) = .error e ↔
    ∃ sh, image.sectionHeaders.find? (·.kind == .symbolTable) = some sh ∧ ¬ InFile image sh ∧
      outside image sh = e := by
  rw [allSymbols]
  cases image.sectionHeaders.find? (·.kind == .symbolTable) with
  | none => simp [inImage, Except.mapError]
  | some sh => simp [symbols_eq_error_iff]

theorem addrEnd?_eq_none_iff : sh.addrEnd? = none ↔ 0x10000000000000000 ≤ sh.addr.toNat + sh.size.toNat :=
  Word.add?_eq_none_iff

theorem hasData_iff : HasData image table ↔ ∃ sh stop,
    image.sectionHeaders.find? (isNamed table ".bss") = some sh ∧ sh.addrEnd? = some stop := by
  simp only [HasData, ← Nat.not_le, ← addrEnd?_eq_none_iff, ← ne_eq, Option.ne_none_iff_exists',
    exists_and_left]

/-- An image has no pointers exactly if one of the sections that binding looks for is not as it should be, and
the error tells the first of them. -/
theorem pointers_eq_error_iff : pointers image = .error e ↔ Unbindable image e := by
  simp only [pointers, Reading.bind_eq_error_iff, required_eq_error_iff, required_eq_ok_iff,
    sectionData_eq_error_iff, allSymbols_eq_error_iff, inImage_eq_ok_iff, Option.filter_eq_some_iff,
    Option.filter_eq_none_iff, beq_iff_eq]
  constructor
  · rintro (⟨hmissing, rfl⟩ | ⟨names, ⟨hheader, hkind⟩, ⟨hout, rfl⟩ | ⟨table, htable, h⟩⟩)
    · exact .noSectionTexts hmissing
    · exact .sectionTexts hheader hkind hout
    have htexts : SectionTexts image table := ⟨names, hheader, hkind, htable⟩
    rcases h with ⟨hmissing, rfl⟩ | ⟨bss, hbss, ⟨hwraps, rfl⟩ | ⟨stop, hstop, h⟩⟩
    · exact .noData htexts hmissing
    · exact .wraps htexts hbss (addrEnd?_eq_none_iff.1 hwraps)
    have hdata : HasData image table := hasData_iff.2 ⟨bss, stop, hbss, hstop⟩
    rcases h with ⟨hmissing, rfl⟩ | ⟨strtab, hstrtab, ⟨hout, rfl⟩ | ⟨text, htext, h⟩⟩
    · exact .noSymbolTexts htexts hdata hmissing
    · exact .symbolTexts htexts hdata hstrtab hout
    have hsymbolTexts : HasSymbolTexts image table := ⟨strtab, hstrtab, inFile_iff.2 ⟨text, htext⟩⟩
    rcases h with ⟨symtab, hsymtab, hout, rfl⟩ | ⟨_, -, h⟩
    · exact .symbols htexts hdata hsymbolTexts hsymtab hout
    · cases h
  · -- each check that comes before the failed one goes through
    intro h
    cases h with
    | noSectionTexts missing => exact .inl ⟨missing, rfl⟩
    | sectionTexts header kind out => exact .inr ⟨_, ⟨header, kind⟩, .inl ⟨out, rfl⟩⟩
    | noData texts missing =>
      obtain ⟨names, hheader, hkind, htable⟩ := texts
      exact .inr ⟨names, ⟨hheader, hkind⟩, .inr ⟨_, htable, .inl ⟨missing, rfl⟩⟩⟩
    | wraps texts first wraps =>
      obtain ⟨names, hheader, hkind, htable⟩ := texts
      exact .inr ⟨names, ⟨hheader, hkind⟩, .inr ⟨_, htable, .inr ⟨_, first,
        .inl ⟨addrEnd?_eq_none_iff.2 wraps, rfl⟩⟩⟩⟩
    | noSymbolTexts texts data missing =>
      obtain ⟨names, hheader, hkind, htable⟩ := texts
      obtain ⟨bss, stop, hbss, hstop⟩ := hasData_iff.1 data
      exact .inr ⟨names, ⟨hheader, hkind⟩, .inr ⟨_, htable, .inr ⟨bss, hbss, .inr ⟨stop, hstop,
        .inl ⟨missing, rfl⟩⟩⟩⟩⟩
    | symbolTexts texts data first out =>
      obtain ⟨names, hheader, hkind, htable⟩ := texts
      obtain ⟨bss, stop, hbss, hstop⟩ := hasData_iff.1 data
      exact .inr ⟨names, ⟨hheader, hkind⟩, .inr ⟨_, htable, .inr ⟨bss, hbss, .inr ⟨stop, hstop,
        .inr ⟨_, first, .inl ⟨out, rfl⟩⟩⟩⟩⟩⟩
    | symbols texts data symbolTexts first out =>
      obtain ⟨names, hheader, hkind, htable⟩ := texts
      obtain ⟨bss, stop, hbss, hstop⟩ := hasData_iff.1 data
      obtain ⟨strtab, hstrtab, hin⟩ := symbolTexts
      obtain ⟨text, htext⟩ := inFile_iff.1 hin
      exact .inr ⟨names, ⟨hheader, hkind⟩, .inr ⟨_, htable, .inr ⟨bss, hbss, .inr ⟨stop, hstop,
        .inr ⟨strtab, hstrtab, .inr ⟨text, htext, .inl ⟨_, first, out, rfl⟩⟩⟩⟩⟩⟩⟩

theorem pointersOf_eq_error_iff (h : Image.parse binary = .ok image) :
    pointersOf binary = .error e ↔ Unbindable image e := by
  rw [pointersOf, h]
  exact pointers_eq_error_iff

/-! ### Pointers that are not in memory -/

theorem FirstMissing.not_present (h : FirstMissing m c a) : ¬ Present m c := fun hall => by
  have hthere := hall a h.covers
  rw [h.missing] at hthere
  cases hthere

/-- A pointer has only one first byte that is not there. -/
theorem FirstMissing.unique (h : FirstMissing m c a) (h' : FirstMissing m c a') : a = a' := by
  have hle : ∀ {b b'}, FirstMissing m c b → FirstMissing m c b' → b.toNat ≤ b'.toNat := by
    intro b b' hb hb'
    by_contra hlt
    have hthere := hb.before b' hb'.covers (Nat.not_le.1 hlt)
    rw [hb'.missing] at hthere
    cases hthere
  exact UInt64.toNat_inj.1 (Nat.le_antisymm (hle h h') (hle h' h))

/-- A list has only one first element that does not have a property. -/
theorem first_unique {α : Type} {P : α → Prop} {x y : α} {before before' after after' : List α}
    (heq : before ++ x :: after = before' ++ y :: after') (hbefore : ∀ b ∈ before, P b) (hx : ¬ P x)
    (hbefore' : ∀ b ∈ before', P b) (hy : ¬ P y) : x = y := by
  classical
  have hfind : ∀ {front back : List α} {z : α}, (∀ b ∈ front, P b) → ¬ P z →
      (front ++ z :: back).find? (fun b => ¬ P b) = some z := fun hfront hz =>
    List.find?_eq_some_iff_append.2 ⟨by simpa using hz, _, _, rfl, by simpa using hfront⟩
  have hfirst := @hfind before after x hbefore hx
  rw [heq, hfind hbefore' hy] at hfirst
  exact (Option.some.inj hfirst).symm

/-- Binding fails if the image has no pointers, or else at the first byte of the first pointer that is not in
memory. -/
theorem bind_eq_error_iff {binder : Binder} {s : SparseSpace} : (bind binder binary s).outcome = .error e ↔
    pointersOf binary = .error e ∨ ∃ p before c after a, pointersOf binary = .ok p ∧
      p.candidates = before ++ c :: after ∧ (∀ b ∈ before, Present (byte? s) b) ∧
      FirstMissing (byte? s) c a ∧ e = .memory (.unmapped a) := by
  cases hp : pointersOf binary with
  | error e' =>
    rw [bind, hp]
    simp [Action.fail]
  | ok p =>
    rcases bind_cases hp binder s with ⟨hpresent, s', said, heq, -⟩ |
      ⟨before, c, after, a, s', said, hsplit, hpresent, hmissing, heq, -⟩
    · rw [heq]
      simp only [reduceCtorEq, false_iff]
      rintro (⟨⟨⟩⟩ | ⟨_, before, c, after, a, ⟨⟩, hsplit, -, hmissing, -⟩)
      exact hmissing.not_present (hpresent c (hsplit ▸ List.mem_append_right _ List.mem_cons_self))
    · rw [heq]
      constructor
      · rintro ⟨⟩
        exact .inr ⟨p, before, c, after, a, rfl, hsplit, hpresent, hmissing, rfl⟩
      · rintro (⟨⟨⟩⟩ | ⟨_, before', c', after', a', ⟨⟩, hsplit', hpresent', hmissing', rfl⟩)
        obtain rfl := first_unique (hsplit.symm.trans hsplit') hpresent hmissing.not_present hpresent'
          hmissing'.not_present
        rw [hmissing.unique hmissing']

end EnvKernel.Program
