import EnvKernel.Elf.Image
import EnvKernel.Proofs.Bytes

/-!
Which byte images are executables. `checks` lists what is asked of the numbers in the first 64 bytes, in
order and over the natural numbers; `report` goes through such a list up to the first check that fails.
`parseWith_eq_report` says that parsing is nothing else, and `parse_exact` reads off when an image is
accepted, with which error it is refused, and which errors never come out.
-/

namespace EnvKernel.Elf

/-- The numbers of a file header. -/
structure HeaderNumbers where
  fileClass : Nat
  fileType : Nat
  entry : Nat
  phoff : Nat
  shoff : Nat
  phentsize : Nat
  phnum : Nat
  shentsize : Nat
  shnum : Nat
  shstrndx : Nat
deriving DecidableEq, Repr

/-- The numbers that the first 64 bytes of an image spell. -/
def HeaderNumbers.read (b : Bytes) : HeaderNumbers where
  fileClass := b.field 4 1
  fileType := b.field 16 2
  entry := b.field 24 8
  phoff := b.field 32 8
  shoff := b.field 40 8
  phentsize := b.field 54 2
  phnum := b.field 56 2
  shentsize := b.field 58 2
  shnum := b.field 60 2
  shstrndx := b.field 62 2

/-- The header has the numbers `n`. -/
structure FileHeader.Matches (h : FileHeader) (n : HeaderNumbers) : Prop where
  entry : h.entry.toNat = n.entry
  phoff : h.phoff.toNat = n.phoff
  shoff : h.shoff.toNat = n.shoff
  phentsize : h.phentsize.toNat = n.phentsize
  phnum : h.phnum.toNat = n.phnum
  shentsize : h.shentsize.toNat = n.shentsize
  shnum : h.shnum.toNat = n.shnum
  shstrndx : h.shstrndx.toNat = n.shstrndx

/-- A decoder of file headers: from 64 bytes with the magic and the class of 64-bit images it reads the
numbers at their places. What it does with other bytes is left open. -/
def Decodes (decode : Bytes → Except ElfError FileHeader) : Prop :=
  ∀ raw : Bytes, raw.size = 64 → raw.data.toList.take 4 = [0x7f, 0x45, 0x4c, 0x46] → raw.field 4 1 = 2 →
    ∃ h, decode raw = .ok h ∧ h.Matches (.read raw)

/-- One thing that is asked of an image, and the error of an image that does not have it. -/
structure Check where
  holds : Bool
  error : ElfError

/-- What is asked of an image, in order. -/
def checks (b : Bytes) : List Check :=
  let n := HeaderNumbers.read b
  [⟨64 ≤ b.size, .truncated b.size⟩,
    ⟨b.data.toList.take 4 = [0x7f, 0x45, 0x4c, 0x46], .badMagic⟩,
    ⟨n.fileType = 2, .notExecutable (.ofNat n.fileType)⟩,
    ⟨n.fileClass = 2, .wrongClass (.ofNat n.fileClass)⟩,
    ⟨n.shentsize = 64, .badSectionEntrySize (.ofNat n.shentsize)⟩,
    ⟨n.phentsize = 56, .badProgramEntrySize (.ofNat n.phentsize)⟩,
    ⟨n.shstrndx ≠ 0 ∧ n.shstrndx ≠ 0xffff ∧ n.shstrndx < n.shnum,
      .badSectionNameIndex (.ofNat n.shstrndx) (.ofNat n.shnum)⟩,
    ⟨0 < n.phoff ∧ n.phoff < b.size, .badProgramTableOffset (.ofNat n.phoff)⟩,
    ⟨n.shoff < b.size, .badSectionTableOffset (.ofNat n.shoff)⟩,
    ⟨n.phoff + 56 * n.phnum ≤ b.size, .programTableOutOfBounds⟩,
    ⟨n.shoff + 64 * n.shnum ≤ b.size, .sectionTableOutOfBounds⟩,
    ⟨n.entry ≠ 0, .noEntryPoint⟩]

/-! ### Going through a list of checks -/

section Report

variable {α : Type}

/-- The error of the first check that fails, and `x` if there is none. -/
def report (x : α) : List Check → Except ElfError α
  | [] => .ok x
  | c :: cs => if c.holds then report x cs else .error c.error

variable {x y : α} {e : ElfError} {cs : List Check}

theorem report_eq_ok_iff : report x cs = .ok y ↔ (∀ c ∈ cs, c.holds) ∧ x = y := by
  induction cs with
  | nil => simp [report]
  | cons c cs ih =>
    rw [report, List.forall_mem_cons]
    by_cases hc : c.holds
    · rw [if_pos hc, ih, and_assoc, and_iff_right hc]
    · simp [hc]

theorem report_eq_error_iff :
    report x cs = .error e ↔ ∃ c, cs.find? (!·.holds) = some c ∧ c.error = e := by
  induction cs with
  | nil => simp [report]
  | cons c cs ih =>
    rw [report, List.find?_cons]
    cases hc : c.holds <;> simp [ih]

/-- An `if` that refuses is one check more. -/
theorem ite_eq_report {q p : Prop} [Decidable q] [Decidable p] {r : Except ElfError α} (hq : q ↔ ¬ p)
    (hr : p → r = report x cs) : (if q then .error e else r) = report x (⟨p, e⟩ :: cs) := by
  rw [report]
  by_cases hp : p
  · rw [if_neg (mt hq.1 (not_not_intro hp)), if_pos (decide_eq_true hp), hr hp]
  · rw [if_pos (hq.2 hp), if_neg (by simpa using hp)]

/-- Something that has to succeed is one check more, whatever its own error. -/
theorem match_eq_report {a : Except OutOfBounds Bytes} {p : Prop} [Decidable p] {r : Except ElfError α} :
    ((∃ b, a = .ok b) ↔ p) → (p → r = report x cs) →
      (match a with
        | .error _ => .error e
        | .ok _ => r) = report x (⟨p, e⟩ :: cs) := by
  intro ha hr
  rw [report]
  cases a with
  | error e' =>
    have hp : ¬ p := by simpa using ha
    rw [if_neg (by simpa using hp)]
  | ok b =>
    have hp : p := ha.1 ⟨b, rfl⟩
    rw [if_pos (decide_eq_true hp)]
    exact hr hp

theorem report_bind : (report () cs >>= fun _ => .ok x) = report x cs := by
  induction cs with
  | nil => rfl
  | cons c cs ih =>
    rw [report, report]
    by_cases hc : c.holds
    · rw [if_pos hc, if_pos hc, ih]
    · rw [if_neg hc, if_neg hc]
      rfl

end Report

/-! ### The checks on a decoded header -/

variable {b : Bytes} {h : FileHeader} {decode : Bytes → Except ElfError FileHeader}

/-- A table of the file header fits exactly if its last entry ends in the image. -/
theorem exists_table_eq_ok_iff {offset entrySize : UInt64} {count : UInt16} {size : Nat}
    (hsize : entrySize.toNat = size) : (∃ raw, b.table offset count.toUInt64 entrySize = .ok raw) ↔
      offset.toNat + size * count.toNat ≤ b.size := by
  simp only [Bytes.table_eq_ok_iff, exists_and_left, exists_eq, and_true, UInt16.toNat_toUInt64, hsize,
    Nat.mul_comm size]

/-- The checks on a decoded header are the last eight. -/
theorem checkHeader_eq_report (hm : h.Matches (.read b)) :
    Image.checkHeader b h = report () ((checks b).drop 4) := by
  rw [Image.checkHeader, checks, List.drop]
  simp only [← hm.entry, ← hm.phoff, ← hm.shoff, ← hm.phentsize, ← hm.phnum, ← hm.shentsize,
    ← hm.shnum, ← hm.shstrndx, UInt16.ofNat_toNat, UInt64.ofNat_toNat]
  refine ite_eq_report ?_ fun _ => ite_eq_report ?_ fun _ => ite_eq_report ?_ fun _ =>
    ite_eq_report ?_ fun _ => ite_eq_report ?_ fun _ => match_eq_report (exists_table_eq_ok_iff rfl) fun _ =>
    match_eq_report (exists_table_eq_ok_iff rfl) fun _ => ite_eq_report ?_ fun _ => rfl
  -- Entry sizes of sections and programs, name index, offsets of programs and sections, entry point.
  · rw [ne_eq, ← UInt64.toNat_inj, UInt16.toNat_toUInt64]
    rfl
  · rw [ne_eq, ← UInt64.toNat_inj, UInt16.toNat_toUInt64]
    rfl
  · rw [← UInt16.toNat_inj, ← UInt16.toNat_inj, UInt16.le_iff_toNat_le]
    simp only [UInt16.reduceToNat]
    omega
  · rw [← UInt64.toNat_inj]
    simp only [UInt64.reduceToNat]
    omega
  · exact Nat.not_lt.symm
  · rw [← UInt64.toNat_inj, ne_eq, not_not]
    rfl

/-! ### Parsing -/

/-- The words that hold the numbers of a header. -/
def HeaderNumbers.words (n : HeaderNumbers) : FileHeader where
  entry := .ofNat n.entry
  phoff := .ofNat n.phoff
  shoff := .ofNat n.shoff
  phentsize := .ofNat n.phentsize
  phnum := .ofNat n.phnum
  shentsize := .ofNat n.shentsize
  shnum := .ofNat n.shnum
  shstrndx := .ofNat n.shstrndx

theorem FileHeader.Matches.eq_words {n : HeaderNumbers} (hm : h.Matches n) : h = n.words := by
  cases h
  simp only [HeaderNumbers.words, ← hm.entry, ← hm.phoff, ← hm.shoff, ← hm.phentsize, ← hm.phnum,
    ← hm.shentsize, ← hm.shnum, ← hm.shstrndx, UInt16.ofNat_toNat, UInt64.ofNat_toNat]

theorem words_matches (b : Bytes) : (HeaderNumbers.read b).words.Matches (.read b) where
  entry := UInt64.toNat_ofNat_of_lt' (b.field_lt _ _)
  phoff := UInt64.toNat_ofNat_of_lt' (b.field_lt _ _)
  shoff := UInt64.toNat_ofNat_of_lt' (b.field_lt _ _)
  phentsize := UInt16.toNat_ofNat_of_lt' (b.field_lt _ _)
  phnum := UInt16.toNat_ofNat_of_lt' (b.field_lt _ _)
  shentsize := UInt16.toNat_ofNat_of_lt' (b.field_lt _ _)
  shnum := UInt16.toNat_ofNat_of_lt' (b.field_lt _ _)
  shstrndx := UInt16.toNat_ofNat_of_lt' (b.field_lt _ _)

/-- The first 64 bytes have the numbers of the header. -/
theorem read_extract (b : Bytes) : HeaderNumbers.read (b.extract 0 64) = .read b := by
  have hfield : ∀ {start width : Nat}, start + width ≤ 64 →
      (b.extract 0 64).field start width = b.field start width := by
    intro start width hle
    rw [Bytes.field_extract (by omega), Nat.zero_add]
  simp only [HeaderNumbers.read, hfield, Nat.reduceAdd, Nat.reduceLeDiff]

theorem toList_extract (b : Bytes) (n : Nat) : (b.extract 0 n).data.toList = b.data.toList.take n := by
  rw [Bytes.extract, Array.toList_extract]
  rfl

/-- Parsing an image with room for a header. -/
theorem parseWith_of_le (hsize : 64 ≤ b.size) : Image.parseWith decode b =
    if (b.extract 0 4).data ≠ magic then .error .badMagic
    else if UInt16.ofNat (b.field 16 2) ≠ executableType then .error (.notExecutable (.ofNat (b.field 16 2)))
    else if UInt8.ofNat (b.field 4 1) ≠ class64 then .error (.wrongClass (.ofNat (b.field 4 1)))
    else decode (b.extract 0 64) >>= fun h => Image.checkHeader b h >>= fun _ => .ok ⟨b, h⟩ := by
  have hmagic : b.slice 0 4 = .ok (b.extract 0 4) := Bytes.slice_of_le (by simp; omega)
  have htype : b.u16At 16 = .ok (.ofNat (b.field 16 2)) := Bytes.u16At_of_le (by simp; omega)
  have hclass : b.u8At 4 = .ok (.ofNat (b.field 4 1)) := Bytes.u8At_of_le (by simp; omega)
  have hheader : b.slice 0 fileHeaderSize = .ok (b.extract 0 64) := Bytes.slice_of_le (by simpa)
  rw [Image.parseWith, hmagic, htype, hclass, hheader]
  exact if_neg (Nat.not_lt.2 hsize)

/-- Parsing goes through the checks. -/
theorem parseWith_eq_report (hdecode : Decodes decode) (b : Bytes) :
    Image.parseWith decode b = report ⟨b, (HeaderNumbers.read b).words⟩ (checks b) := by
  by_cases hsize : 64 ≤ b.size
  · rw [parseWith_of_le hsize, checks, report, if_pos (decide_eq_true hsize)]
    refine ite_eq_report ?_ fun hmagic => ite_eq_report ?_ fun _ => ite_eq_report ?_ fun hclass => ?_
    · rw [ne_eq, ← Array.toList_inj, toList_extract]
      rfl
    · rw [ne_eq, ← UInt16.toNat_inj, UInt16.toNat_ofNat_of_lt' (b.field_lt _ _)]
      rfl
    · rw [ne_eq, ← UInt8.toNat_inj, UInt8.toNat_ofNat_of_lt' (b.field_lt _ _)]
      rfl
    -- The decoder gets bytes that it is meant for, whatever the rest of the image is like.
    · have hsize64 : (b.extract 0 64).size = 64 := by
        rw [Bytes.size] at hsize
        rw [Bytes.size, Bytes.extract, Array.size_extract]
        omega
      have hmagic64 : (b.extract 0 64).data.toList.take 4 = [0x7f, 0x45, 0x4c, 0x46] := by
        rw [toList_extract, List.take_take]
        exact hmagic
      have hclass64 : (b.extract 0 64).field 4 1 = 2 :=
        (congrArg HeaderNumbers.fileClass (read_extract b)).trans hclass
      obtain ⟨h, hok, hm⟩ := hdecode (b.extract 0 64) hsize64 hmagic64 hclass64
      rw [read_extract] at hm
      rw [hok, ← hm.eq_words]
      exact (congrArg (· >>= fun _ => _) (checkHeader_eq_report hm)).trans report_bind
  · rw [checks, report, if_neg (by simpa using hsize)]
    exact if_pos (Nat.not_le.1 hsize)

/-- The decoder of the file header reads the numbers at their places. -/
theorem decodes_decode : Decodes FileHeader.decode := by
  intro raw _ hmagic hclass
  refine ⟨(HeaderNumbers.read raw).words, ?_, words_matches raw⟩
  rw [FileHeader.decode, if_neg, if_neg]
  · rfl
  · exact not_not_intro hclass
  · rw [ne_eq, not_not, ← Array.toList_inj, toList_extract]
    exact hmagic

theorem parseWith_eq_ok_iff (hdecode : Decodes decode) {image : Image} :
    Image.parseWith decode b = .ok image ↔
      (∀ c ∈ checks b, c.holds) ∧ ⟨b, (HeaderNumbers.read b).words⟩ = image := by
  rw [parseWith_eq_report hdecode, report_eq_ok_iff]

/-- What parsing `b` comes to. -/
structure Parses (b : Bytes) (r : Except ElfError Image) : Prop where
  /-- An image is accepted exactly if it has all that is asked of it. -/
  ok_iff : (∃ image, r = .ok image) ↔ ∀ c ∈ checks b, c.holds
  /-- It is refused with the error of the first check that fails, and with no other. -/
  error_iff : ∀ e, r = .error e ↔ ∃ c, (checks b).find? (!·.holds) = some c ∧ c.error = e
  /-- What is accepted are the bytes with the numbers of their header. -/
  accepted : ∀ image, r = .ok image → image.bytes = b ∧ image.header.Matches (.read b)
  no_header : ∀ reason, r ≠ .error (.header reason)
  no_outOfBounds : ∀ read, r ≠ .error (.outOfBounds read)
  no_addressOverflow : ∀ addr size, r ≠ .error (.addressOverflow addr size)
  /-- A read that succeeds ends in the image and has all the bytes that it asks for, so nothing that
  takes them apart can miss one. -/
  whole : ∀ offset len raw, b.slice offset len = .ok raw →
    offset.toNat + len.toNat ≤ b.size ∧ raw.size = len.toNat

/-- The errors of the checks are those of the file header. -/
theorem error_of_mem_checks {c : Check} (hc : c ∈ checks b) : (∀ reason, c.error ≠ .header reason) ∧
    (∀ read, c.error ≠ .outOfBounds read) ∧ ∀ addr size, c.error ≠ .addressOverflow addr size := by
  simp only [checks, List.mem_cons, List.not_mem_nil, or_false] at hc
  rcases hc with rfl | rfl | rfl | rfl | rfl | rfl | rfl | rfl | rfl | rfl | rfl | rfl <;> simp

/-- Parsing accepts exactly the images that pass all checks and reports the first one that fails. -/
theorem parse_exact (hdecode : Decodes decode) (b : Bytes) : Parses b (Image.parseWith decode b) := by
  have herror : ∀ e, Image.parseWith decode b = .error e ↔
      ∃ c, (checks b).find? (!·.holds) = some c ∧ c.error = e := by
    intro e
    rw [parseWith_eq_report hdecode, report_eq_error_iff]
  have hnever : ∀ e, Image.parseWith decode b = .error e → (∀ reason, e ≠ .header reason) ∧
      (∀ read, e ≠ .outOfBounds read) ∧ ∀ addr size, e ≠ .addressOverflow addr size := by
    intro e he
    obtain ⟨c, hfind, rfl⟩ := (herror e).1 he
    exact error_of_mem_checks (List.mem_of_find?_eq_some hfind)
  refine
    { ok_iff := ?_, error_iff := herror, accepted := ?_,
      no_header := fun reason h => (hnever _ h).1 reason rfl,
      no_outOfBounds := fun read h => (hnever _ h).2.1 read rfl,
      no_addressOverflow := fun addr size h => (hnever _ h).2.2 addr size rfl, whole := ?_ }
  · simp only [parseWith_eq_ok_iff hdecode, exists_and_left, exists_eq', and_true]
  · rintro image h
    obtain ⟨-, rfl⟩ := (parseWith_eq_ok_iff hdecode).1 h
    exact ⟨rfl, words_matches b⟩
  · intro offset len raw h
    exact ⟨(Bytes.slice_eq_ok_iff.1 h).1, Bytes.size_of_slice h⟩

/-- An image with the magic and zeros only fails seven checks and reports the first of them. -/
theorem parse_exact_zeros : Decodes FileHeader.decode ∧
    let b : Bytes := ⟨magic ++ Array.replicate 60 0, by decide⟩
    Parses b (Image.parse b) ∧ ((checks b).filter (!·.holds)).length = 7 ∧
      Image.parse b = .error (.notExecutable 0) := by
  refine ⟨decodes_decode, ?_⟩
  intro b
  have hparses : Parses b (Image.parse b) := parse_exact decodes_decode b
  exact ⟨hparses, by decide, (hparses.error_iff _).2 ⟨_, rfl, rfl⟩⟩

end EnvKernel.Elf
