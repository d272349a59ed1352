import EnvKernel.Proofs.Cpu.Stack

/-!
Saving registers. `exists_save` is the main statement: the sequence leaves the frame of the caller on the
caller's stack, right below the return address, and changes nothing above. What the instructions do is
told twice. `SaveStep.draft` runs the sequence on registers and a list of words alone, where the result
can be computed, and `Drafted` ties that to the processor and its memory, one instruction at a time.
-/

namespace EnvKernel.Cpu

open Env (Registers Trapframe)
open Memory (PageStore LawfulPageStore Holds HoldsWords Mapped Stored Separate byte?)

/-- The frame of a caller that goes on at `returnAddr`, with the stack pointer behind the return address. -/
def Processor.frame (p : Processor) (returnAddr : UInt64) : Trapframe where
  regs := p.regs
  es := p.es.toUInt64
  ds := p.ds.toUInt64
  rip := returnAddr
  cs := p.cs.toUInt64
  rflags := p.rflags
  rsp := p.rsp + 8
  ss := p.ss.toUInt64

/-! ### The sequence on a list of words -/

/-- A part of the sequence carried out: the registers, and the words from the stack pointer up to the
return address. -/
structure Draft where
  regs : Registers
  words : List UInt64

namespace Draft

/-- Where the stack pointer of a caller with registers `p` is now. -/
def rsp (p : Processor) (d : Draft) : UInt64 := p.rsp + 8 - UInt64.ofNat (8 * d.words.length)

/-- One word more. There are at most a frame and the return address. -/
def push (d : Draft) (word : UInt64) : Option Draft :=
  if d.words.length < 25 then some { d with words := word :: d.words } else none

/-- One word replaced, which is not the return address. -/
def store (d : Draft) (offset word : UInt64) : Option Draft :=
  if offset.toNat % 8 = 0 ∧ offset.toNat / 8 + 1 < d.words.length then
    some { d with words := d.words.set (offset.toNat / 8) word }
  else none

/-- The word at an offset from the stack pointer. -/
def word? (d : Draft) (offset : UInt64) : Option UInt64 :=
  if offset.toNat % 8 = 0 then d.words[offset.toNat / 8]? else none

/-- One register replaced. -/
def setRegister (d : Draft) (r : Register) (value : UInt64) : Draft :=
  { d with regs := r.set d.regs value }

end Draft

/-- What an instruction does to a draft. -/
def SaveStep.draft (p : Processor) (d : Draft) : SaveStep → Option Draft
  | .pushZero => d.push 0
  | .pushFlags => d.push p.rflags
  | .pushWordAt offset => (d.word? offset).bind d.push
  | .pushRegister r => d.push (r.get d.regs)
  | .addressOf r offset => some (d.setRegister r (d.rsp p + offset))
  | .storeRegister offset r => d.store offset (r.get d.regs)
  | .clear r => some (d.setRegister r 0)
  | .readSegment r s =>
    some (d.setRegister r ((r.get d.regs &&& ~~~0xffff) ||| (p.segment s).toUInt64))
  | .alignStack => none

/-- The words that the sequence pushes, and the return address. Four of them are zero for now: the
selectors and the stack pointer. -/
def Processor.pushed (p : Processor) (returnAddr : UInt64) : List UInt64 :=
  ({ regs := p.regs, rip := returnAddr, rflags := p.rflags } : Trapframe).words.toList ++ [returnAddr]

/-- Puts a selector to its place in the frame. -/
def placeSelector (s : SegmentRegister) (offset : UInt64) : List SaveStep :=
  [.readSegment .rax s, .storeRegister offset .rax]

/-- Behind the pushes, the sequence puts the stack pointer and the selectors to their places. -/
def placeSteps : List SaveStep :=
  [.addressOf .rax 200, .storeRegister 176 .rax, .clear .rax] ++ placeSelector .cs 160 ++
    placeSelector .ss 184 ++ placeSelector .ds 128 ++ placeSelector .es 120 ++ [.addressOf .rdi 0]

theorem saveSteps_eq : saveSteps = saveSteps.take 24 ++ placeSteps ++ [.alignStack] := rfl

variable {p : Processor} {d d' : Draft} {returnAddr : UInt64}

theorem draft_pushes : (saveSteps.take 24).foldlM (SaveStep.draft p) ⟨p.regs, [returnAddr]⟩ =
    some ⟨p.regs, p.pushed returnAddr⟩ := rfl

/-- Behind the pushes, a selector is extended with zeros if the register held a word of 16 bits. -/
theorem draft_placeSelector {s : SegmentRegister} {offset : UInt64}
    (hlow : d.regs.rax &&& ~~~0xffff = 0) (hlength : d.words.length = 25)
    (hplace : offset.toNat % 8 = 0 ∧ offset.toNat / 8 + 1 < 25) :
    (placeSelector s offset).foldlM (SaveStep.draft p) d =
      some ⟨{ d.regs with rax := (p.segment s).toUInt64 },
        d.words.set (offset.toNat / 8) (p.segment s).toUInt64⟩ := by
  have hvalue : (Register.get d.regs .rax &&& ~~~0xffff) ||| (p.segment s).toUInt64 =
      (p.segment s).toUInt64 := by
    rw [show Register.get d.regs .rax = d.regs.rax from rfl, hlow, UInt64.zero_or]
  simp only [placeSelector, List.foldlM_cons, List.foldlM_nil, SaveStep.draft, hvalue]
  show (d.setRegister .rax _).store _ _ >>= pure = _
  rw [bind_pure]
  exact if_pos (hlength ▸ hplace)

theorem draft_placeSteps : placeSteps.foldlM (SaveStep.draft p) ⟨p.regs, p.pushed returnAddr⟩ =
    some ⟨{ p.regs with rax := p.es.toUInt64, rdi := p.rsp - 192 },
      (p.frame returnAddr).words.toList ++ [returnAddr]⟩ := by
  have htop : p.rsp + 8 - UInt64.ofNat 200 + 200 = p.rsp + 8 := UInt64.sub_add_cancel _ _
  have hbottom : p.rsp + 8 - UInt64.ofNat 200 + 0 = p.rsp - 192 := by grind
  have hstart : [SaveStep.addressOf .rax 200, .storeRegister 176 .rax, .clear .rax].foldlM
      (SaveStep.draft p) ⟨p.regs, p.pushed returnAddr⟩ =
      some ⟨{ p.regs with rax := 0 },
        (p.pushed returnAddr).set 22 (p.rsp + 8 - UInt64.ofNat 200 + 200)⟩ := rfl
  rw [htop] at hstart
  simp only [placeSteps, List.foldlM_append, hstart, Option.bind_eq_bind, Option.bind_some]
  rw [draft_placeSelector UInt64.zero_and rfl (by decide), Option.bind_some,
    draft_placeSelector (Word.half_and_not_mask _) rfl (by decide), Option.bind_some,
    draft_placeSelector (Word.half_and_not_mask _) rfl (by decide), Option.bind_some,
    draft_placeSelector (Word.half_and_not_mask _) rfl (by decide), Option.bind_some]
  rw [← hbottom]
  rfl

theorem draft_saveSteps :
    (saveSteps.take 24 ++ placeSteps).foldlM (SaveStep.draft p) ⟨p.regs, [returnAddr]⟩ =
      some ⟨{ p.regs with rax := p.es.toUInt64, rdi := p.rsp - 192 },
        (p.frame returnAddr).words.toList ++ [returnAddr]⟩ := by
  rw [List.foldlM_append, draft_pushes, Option.bind_eq_bind, Option.bind_some, draft_placeSteps]

/-! ### The sequence on the stack -/

variable {σ ε : Type} [PageStore σ] [LawfulPageStore σ] {h u : Hardware σ}

/-- A caller has called: the return address lies on its stack, and below there is room for the frame and
for one more call. -/
structure Entered (h : Hardware σ) (returnAddr : UInt64) : Prop where
  /-- An address is one byte of its own. -/
  separate : Separate h.memory
  room : 208 ≤ h.cpu.rsp.toNat
  top : h.cpu.rsp.toNat + 8 < 0x10000000000000000
  mapped : Mapped h.memory ((h.cpu.rsp.toNat - 192) / 16 * 16 - 8) h.cpu.rsp.toNat
  returnAddr : Holds h.memory h.cpu.rsp.toNat (Word.toBytes returnAddr)

/-- The hardware `u` is `h`, the caller, with a draft on its stack. -/
structure Drafted (h : Hardware σ) (d : Draft) (u : Hardware σ) : Prop where
  cpu_eq : u.cpu = { h.cpu with regs := d.regs, rsp := d.rsp h.cpu }
  length_pos : 0 < d.words.length
  length_le : d.words.length ≤ 25
  words : HoldsWords u.memory (h.cpu.rsp.toNat + 8 - 8 * d.words.length) d.words
  separate : Separate u.memory
  mapped : ∀ a : UInt64, (byte? u.memory a).isSome = (byte? h.memory a).isSome
  above : ∀ a : UInt64, h.cpu.rsp.toNat ≤ a.toNat → byte? u.memory a = byte? h.memory a

theorem Entered.toNat_rsp (he : Entered h returnAddr) (hd : d.words.length ≤ 25) :
    (d.rsp h.cpu).toNat = h.cpu.rsp.toNat + 8 - 8 * d.words.length := by
  have hroom := he.room
  have htop : (h.cpu.rsp + 8).toNat = h.cpu.rsp.toNat + 8 := Word.toNat_add he.top
  have hsize : (UInt64.ofNat (8 * d.words.length)).toNat = 8 * d.words.length :=
    Nat.mod_eq_of_lt (by omega)
  rw [Draft.rsp, Word.toNat_sub (by omega), htop, hsize]

theorem Entered.drafted (he : Entered h returnAddr) : Drafted h ⟨h.cpu.regs, [returnAddr]⟩ h where
  cpu_eq := by
    have hrsp : Draft.rsp h.cpu ⟨h.cpu.regs, [returnAddr]⟩ = h.cpu.rsp := by
      apply UInt64.toNat_inj.1
      rw [he.toNat_rsp (by simp), List.length_singleton]
      omega
    rw [hrsp]
  length_pos := by simp
  length_le := by simp
  words := Memory.holdsWords_cons.2 ⟨he.returnAddr, Memory.holdsWords_nil⟩
  separate := he.separate
  mapped _ := rfl
  above _ _ := rfl

/-- A word stored below the caller's stack pointer leaves what lies above it. -/
theorem Drafted.stored (hu : Drafted h d u) {start : Nat} {word : UInt64} {t : σ}
    (hstored : Stored u.memory start word t) (hbelow : start + 8 ≤ h.cpu.rsp.toNat) {p : Processor}
    (hcpu : p = { h.cpu with regs := d'.regs, rsp := d'.rsp h.cpu }) (hpos : 0 < d'.words.length)
    (hle : d'.words.length ≤ 25)
    (hwords : HoldsWords t (h.cpu.rsp.toNat + 8 - 8 * d'.words.length) d'.words) :
    Drafted h d' ⟨p, t⟩ where
  cpu_eq := hcpu
  length_pos := hpos
  length_le := hle
  words := hwords
  separate := hstored.separate
  mapped a := (hstored.mapped a).trans (hu.mapped a)
  above a ha := (hstored.others a (.inr (by omega))).trans (hu.above a ha)

/-- Where a word of a draft lies. -/
theorem Drafted.toNat_place (hu : Drafted h d u) (he : Entered h returnAddr) {offset : UInt64}
    (haligned : offset.toNat % 8 = 0) (hplace : offset.toNat / 8 < d.words.length) :
    (u.cpu.rsp + offset).toNat =
      h.cpu.rsp.toNat + 8 - 8 * d.words.length + 8 * (offset.toNat / 8) := by
  have hroom := he.room
  have htop := he.top
  have hle := hu.length_le
  rw [hu.cpu_eq, UInt64.toNat_add, he.toNat_rsp hle]
  omega

/-- A word is pushed in front of a draft. -/
theorem Drafted.push (hu : Drafted h d u) (he : Entered h returnAddr) {word : UInt64}
    (hd : d.push word = some d') :
    ∃ v, (Hardware.push word u : Effect (Hardware σ) ε Unit) = { outcome := .ok (), state := v } ∧
      Drafted h d' v := by
  obtain ⟨hlength, hd⟩ := Option.ite_none_right_eq_some.1 hd
  cases hd
  have hroom := he.room
  have hpos := hu.length_pos
  have hcpu : u.cpu.rsp = d.rsp h.cpu := by rw [hu.cpu_eq]
  have hrsp := he.toNat_rsp hu.length_le
  have hmapped : Mapped u.memory (h.cpu.rsp.toNat + 8 - 8 * d.words.length - 8)
      (h.cpu.rsp.toNat + 8 - 8 * d.words.length) :=
    (he.mapped.congr hu.mapped).mono (by omega) (by omega)
  obtain ⟨t, hpush, hstored⟩ := Hardware.exists_push (ε := ε) hu.separate (by rw [hcpu]; omega)
    (by rwa [hcpu, hrsp]) word
  rw [hcpu, hrsp] at hstored
  have hnext : h.cpu.rsp.toNat + 8 - 8 * (d.words.length + 1) =
      h.cpu.rsp.toNat + 8 - 8 * d.words.length - 8 := by omega
  refine ⟨_, hpush, hu.stored hstored (by omega) ?_ (Nat.succ_pos _) hlength ?_⟩
  · have hlower : d.rsp h.cpu - 8 = Draft.rsp h.cpu { d with words := word :: d.words } := by
      have hvalue := toNat_sub_eight (show 8 ≤ (d.rsp h.cpu).toNat by omega)
      have hlast := he.toNat_rsp (d := { d with words := word :: d.words }) hlength
      rw [List.length_cons, hnext] at hlast
      exact UInt64.toNat_inj.1 (by rw [hvalue, hrsp, ← hlast])
    rw [← hlower, hu.cpu_eq]
  · rw [List.length_cons, hnext]
    refine Memory.holdsWords_cons.2 ⟨hstored.holds, ?_⟩
    rw [Nat.sub_add_cancel (by omega)]
    exact hu.words.stored hstored (.inl (by omega))

/-- A word of a draft is replaced. -/
theorem Drafted.store (hu : Drafted h d u) (he : Entered h returnAddr) {offset word : UInt64}
    (hd : d.store offset word = some d') :
    ∃ v, (Hardware.store (u.cpu.rsp + offset) word u : Effect (Hardware σ) ε Unit) =
        { outcome := .ok (), state := v } ∧ Drafted h d' v := by
  obtain ⟨⟨haligned, hplace⟩, hd⟩ := Option.ite_none_right_eq_some.1 hd
  cases hd
  have hroom := he.room
  have htop := he.top
  have hle := hu.length_le
  have haddr := hu.toNat_place he haligned (by omega)
  obtain ⟨t, hstore, hstored⟩ := Hardware.exists_store (ε := ε) hu.separate
    (show (u.cpu.rsp + offset).toNat + 8 ≤ 0x10000000000000000 by omega)
    ((he.mapped.congr hu.mapped).mono (by omega) (by omega)) word
  rw [haddr] at hstored
  have hlength : (d.words.set (offset.toNat / 8) word).length = d.words.length := List.length_set
  refine ⟨_, hstore, hu.stored hstored (by omega) ?_ (hlength ▸ hu.length_pos) (hlength ▸ hle) ?_⟩
  · rw [hu.cpu_eq, Draft.rsp, Draft.rsp, hlength]
  · rw [hlength]
    exact hu.words.set hstored

/-- A register is replaced. -/
theorem Drafted.setRegister (hu : Drafted h d u) (r : Register) (value : UInt64) :
    Drafted h (d.setRegister r value) { u with cpu := u.cpu.setRegister r value } :=
  { hu with cpu_eq := by rw [hu.cpu_eq]; rfl }

/-- A word of a draft is loaded. -/
theorem Drafted.load (hu : Drafted h d u) (he : Entered h returnAddr) {offset word : UInt64}
    (hd : d.word? offset = some word) :
    (Hardware.load (u.cpu.rsp + offset) u : Effect (Hardware σ) ε UInt64) =
      { outcome := .ok word, state := u } := by
  obtain ⟨haligned, hword⟩ := Option.ite_none_right_eq_some.1 hd
  have hroom := he.room
  have htop := he.top
  have hle := hu.length_le
  obtain ⟨hplace, -⟩ := List.getElem?_eq_some_iff.1 hword
  have haddr := hu.toNat_place he haligned hplace
  refine Hardware.load_eq (by omega) ?_
  rw [haddr]
  exact hu.words _ _ hword

/-- Each instruction does to the stack what it does to the draft. -/
theorem Drafted.step (hu : Drafted h d u) (he : Entered h returnAddr) {step : SaveStep}
    (hd : step.draft h.cpu d = some d') :
    ∃ v, (step.run u : Effect (Hardware σ) ε Unit) = { outcome := .ok (), state := v } ∧
      Drafted h d' v := by
  have hregs : u.cpu.regs = d.regs := by rw [hu.cpu_eq]
  cases step with
  | pushZero => exact hu.push he hd
  | pushFlags =>
    rw [SaveStep.run, Action.bind_state_apply, show u.cpu.rflags = h.cpu.rflags by rw [hu.cpu_eq]]
    exact hu.push he hd
  | pushWordAt offset =>
    obtain ⟨word, hword, hpush⟩ := Option.bind_eq_some_iff.1 hd
    rw [SaveStep.run, Action.bind_state_apply, Action.bind_of_ok (hu.load he hword)]
    exact hu.push he hpush
  | pushRegister r =>
    rw [SaveStep.run, Action.bind_state_apply, hregs]
    exact hu.push he hd
  | addressOf r offset =>
    cases hd
    refine ⟨_, rfl, ?_⟩
    rw [show d.rsp h.cpu = u.cpu.rsp by rw [hu.cpu_eq]]
    exact hu.setRegister r (u.cpu.rsp + offset)
  | storeRegister offset r =>
    rw [SaveStep.run, Action.bind_state_apply, hregs]
    exact hu.store he hd
  | clear r =>
    cases hd
    exact ⟨_, rfl, hu.setRegister r 0⟩
  | readSegment r s =>
    cases hd
    refine ⟨_, rfl, ?_⟩
    have hsegment : h.cpu.segment s = u.cpu.segment s := by
      rw [hu.cpu_eq]
      cases s <;> rfl
    rw [hsegment, ← hregs]
    exact hu.setRegister r _
  | alignStack => cases hd

/-- What instructions do to a draft, they do to the stack, whatever follows them. -/
theorem Drafted.run (hu : Drafted h d u) (he : Entered h returnAddr) {steps : List SaveStep}
    (hd : steps.foldlM (SaveStep.draft h.cpu) d = some d') (rest : List SaveStep) :
    ∃ v, (runSave (steps ++ rest) u : Effect (Hardware σ) ε Unit) = runSave rest v ∧
      Drafted h d' v := by
  induction steps generalizing d u with
  | nil =>
    cases hd
    exact ⟨u, rfl, hu⟩
  | cons step steps ih =>
    obtain ⟨next, hstep, hd⟩ := Option.bind_eq_some_iff.1 hd
    obtain ⟨v, hrun, hv⟩ := hu.step (ε := ε) he hstep
    obtain ⟨w, hlast, hw⟩ := ih hv hd
    refine ⟨w, ?_, hw⟩
    rw [List.cons_append, runSave, Action.bind_of_ok hrun, hlast]
    rfl

/-- The frame of the caller `h` is on its stack, at the address that is the first argument of the kernel. -/
structure Saved (h : Hardware σ) (returnAddr : UInt64) (u : Hardware σ) : Prop where
  argument : u.cpu.regs.rdi = h.cpu.rsp - 192
  frame : HoldsWords u.memory (h.cpu.rsp.toNat - 192) (h.cpu.frame returnAddr).words.toList
  separate : Separate u.memory
  mapped : ∀ a : UInt64, (byte? u.memory a).isSome = (byte? h.memory a).isSome
  above : ∀ a : UInt64, h.cpu.rsp.toNat ≤ a.toNat → byte? u.memory a = byte? h.memory a

/-- The sequence saves the frame and leaves the stack pointer at the next multiple of 16 below it. -/
theorem Entered.exists_frame (he : Entered h returnAddr) :
    ∃ u, (runSave saveSteps h : Effect (Hardware σ) ε Unit) = { outcome := .ok (), state := u } ∧
      u.cpu.rsp.toNat = (h.cpu.rsp.toNat - 192) / 16 * 16 ∧ Saved h returnAddr u := by
  have hroom := he.room
  obtain ⟨v, hrun, hv⟩ := he.drafted.run (ε := ε) he draft_saveSteps [.alignStack]
  rw [← saveSteps_eq] at hrun
  have hlength : ((h.cpu.frame returnAddr).words.toList ++ [returnAddr]).length = 25 := by simp
  have hstart : h.cpu.rsp.toNat + 8 - 8 * 25 = h.cpu.rsp.toNat - 192 := by omega
  have hrsp : v.cpu.rsp.toNat = h.cpu.rsp.toNat - 192 := by
    rw [hv.cpu_eq, he.toNat_rsp hv.length_le, hlength, hstart]
  refine ⟨{ v with cpu := { v.cpu with rsp := v.cpu.rsp &&& ~~~15 } }, hrun, ?_, ?_⟩
  · rw [← hrsp]
    exact Word.toNat_align v.cpu.rsp
  · exact {
      argument := by
        show v.cpu.regs.rdi = h.cpu.rsp - 192
        rw [hv.cpu_eq]
      frame := by
        have hall := hv.words
        rw [hlength, hstart] at hall
        intro k word hword
        have hk := (List.getElem?_eq_some_iff.1 hword).1
        exact hall k word (List.getElem?_append_left hk ▸ hword)
      separate := hv.separate
      mapped := hv.mapped
      above := hv.above }

/-- The frame is saved, and the kernel reads it as it was meant. The call of the kernel pushes one more
word, below the frame. -/
theorem Entered.exists_save (he : Entered h returnAddr) (after : UInt64) :
    ∃ u, (save after h : Effect (Hardware σ) ε Trapframe) =
        { outcome := .ok (h.cpu.frame returnAddr), state := u } ∧ Saved h returnAddr u := by
  have hroom := he.room
  have htop := he.top
  obtain ⟨v, hrun, hrsp, hv⟩ := he.exists_frame (ε := ε)
  obtain ⟨t, hpush, hstored⟩ := Hardware.exists_push (ε := ε) hv.separate (by omega)
    ((he.mapped.congr hv.mapped).mono (by omega) (by omega)) after
  set u : Hardware σ := ⟨{ v.cpu with rsp := v.cpu.rsp - 8 }, t⟩
  have hu : Saved h returnAddr u := {
    argument := hv.argument
    frame := hv.frame.stored hstored (.inl (by omega))
    separate := hstored.separate
    mapped := fun a => (hstored.mapped a).trans (hv.mapped a)
    above := fun a ha => (hstored.others a (.inr (by omega))).trans (hv.above a ha) }
  have haddr : (h.cpu.rsp - 192).toNat = h.cpu.rsp.toNat - 192 :=
    Word.toNat_sub (show 192 ≤ h.cpu.rsp.toNat by omega)
  have hload : (loadFrame u.cpu.regs.rdi u : Effect (Hardware σ) ε Trapframe) =
      { outcome := .ok (h.cpu.frame returnAddr), state := u } := by
    rw [hu.argument]
    exact Hardware.loadFrame_eq (by omega) (by rw [haddr]; exact hu.frame)
  refine ⟨u, ?_, hu⟩
  rw [save, Action.bind_of_ok hrun, Action.bind_of_ok hpush, Action.bind_state_apply, hload]
  rfl

end EnvKernel.Cpu
