import EnvKernel.Proofs.Cpu.Restore
import EnvKernel.Proofs.Cpu.Save

/-!
Going on where one left. `resume_exact` is the main statement: the frame that is saved for a caller
brings back its registers whenever it is restored, with the caller's stack and everything above as they
were left. Restoring writes two words to the stack of the caller; the upper one takes the place of the
return address, and is the return address.
-/

namespace EnvKernel.Cpu

open Env (Trapframe)
open Memory (PageStore LawfulPageStore Holds Mapped Separate byte?)

/-- The instructions that read the frame load all of it but what the last two need. -/
theorem foldl_restoreSteps (tf : Trapframe) (p : Processor) :
    restoreSteps.foldl (RestoreStep.run tf) p =
      { p with regs := tf.regs, es := tf.es.toUInt16, ds := tf.ds.toUInt16, rsp := tf.rsp } := by
  simp only [restoreSteps, List.foldl_cons, List.foldl_nil, RestoreStep.run, Processor.setRegister,
    Register.set, Processor.setSegment]
  rfl

variable {σ ε : Type} [PageStore σ] {h : Hardware σ} {returnAddr : UInt64}

/-- The hardware `u` is `h` with a frame restored: memory is changed in the two words below the stack pointer,
of which the upper one holds the instruction pointer now, and the lower one the flags. -/
structure Restored (h : Hardware σ) (tf : Trapframe) (u : Hardware σ) : Prop where
  cpu_eq : u.cpu = { h.cpu with
    regs := tf.regs, es := tf.es.toUInt16, ds := tf.ds.toUInt16, rsp := tf.rsp, rip := tf.rip,
    rflags := tf.rflags }
  holds : Holds u.memory (tf.rsp.toNat - 8) (Word.toBytes tf.rip)
  flags : Holds u.memory (tf.rsp.toNat - 16) (Word.toBytes tf.rflags)
  others : ∀ a : UInt64, a.toNat < tf.rsp.toNat - 16 ∨ tf.rsp.toNat ≤ a.toNat →
    byte? u.memory a = byte? h.memory a

/-- The hardware `u` is `later` where the caller `h` goes on at its return address. -/
structure Resumed (h : Hardware σ) (returnAddr : UInt64) (later u : Hardware σ) : Prop where
  /-- All registers are those of the call. Code and stack selectors are the kernel's to choose. -/
  cpu_eq : u.cpu = { h.cpu with
    rip := returnAddr, rsp := h.cpu.rsp + 8, cs := later.cpu.cs, ss := later.cpu.ss }
  /-- The place of the return address is as it was at the call. -/
  place : ∀ a : UInt64, h.cpu.rsp.toNat ≤ a.toNat → a.toNat < h.cpu.rsp.toNat + 8 →
    byte? u.memory a = byte? h.memory a
  above : ∀ a : UInt64, h.cpu.rsp.toNat + 8 ≤ a.toNat → byte? u.memory a = byte? later.memory a

/-- Where nothing at and above the stack pointer changed in between, nothing has changed there in the end. -/
theorem Resumed.above_eq {later u : Hardware σ} (hu : Resumed h returnAddr later u)
    (hlater : ∀ a : UInt64, h.cpu.rsp.toNat ≤ a.toNat → byte? later.memory a = byte? h.memory a)
    (a : UInt64) (ha : h.cpu.rsp.toNat ≤ a.toNat) : byte? u.memory a = byte? h.memory a := by
  by_cases hplace : a.toNat < h.cpu.rsp.toNat + 8
  · exact hu.place a ha hplace
  · rw [hu.above a (by omega), hlater a ha]

/-- The last instructions take the flags and the instruction pointer from the stack. -/
theorem popReturn_eq {p : Processor} {t : σ} {rflags rip : UInt64} (hroom : 16 ≤ p.rsp.toNat)
    (hflags : Holds t (p.rsp.toNat - 16) (Word.toBytes rflags))
    (hrip : Holds t (p.rsp.toNat - 8) (Word.toBytes rip)) :
    ((do
      let rflags ← Hardware.pop
      Hardware.onCpu fun p => { p with rflags }
      let rip ← Hardware.pop
      Hardware.onCpu fun p => { p with rip } : Action (Hardware σ) ε Unit)
        ⟨{ p with rsp := p.rsp - 8 - 8 }, t⟩) =
      { outcome := .ok (), state := ⟨{ p with rflags, rip }, t⟩ } := by
  have htop := p.rsp.toNat_lt
  have hupper := toNat_sub_eight (show 8 ≤ p.rsp.toNat by omega)
  have hlower := toNat_sub_eight (show 8 ≤ (p.rsp - 8).toNat by omega)
  rw [hupper, Nat.sub_sub] at hlower
  have hfirst := Hardware.pop_eq (ε := ε) (h := ⟨{ p with rsp := p.rsp - 8 - 8 }, t⟩)
    (show (p.rsp - 8 - 8).toNat + 8 ≤ 0x10000000000000000 by omega)
    (show Holds t (p.rsp - 8 - 8).toNat _ by rwa [hlower])
  have hsecond := Hardware.pop_eq (ε := ε) (h := ⟨{ p with rflags, rsp := p.rsp - 8 }, t⟩)
    (show (p.rsp - 8).toNat + 8 ≤ 0x10000000000000000 by omega)
    (show Holds t (p.rsp - 8).toNat _ by rwa [hupper])
  simp only [UInt64.sub_add_cancel] at hfirst hsecond
  rw [Action.bind_of_ok hfirst, Hardware.bind_onCpu_apply, Action.bind_of_ok hsecond]
  rfl

variable [LawfulPageStore σ]

/-- Storing a word below the saved stack pointer, where there is room for it. -/
theorem exists_pushSaved (tf : Trapframe) (hs : Separate h.memory) (hroom : 8 ≤ tf.rsp.toNat)
    (hmapped : Mapped h.memory (tf.rsp.toNat - 8) tf.rsp.toNat) (word : UInt64) :
    ∃ t, (pushSaved tf word h : Effect (Hardware σ) ε Trapframe) =
        { outcome := .ok { tf with rsp := tf.rsp - 8 }, state := { h with memory := t } } ∧
      Memory.Stored h.memory (tf.rsp.toNat - 8) word t := by
  have htop := tf.rsp.toNat_lt
  have hlower := toNat_sub_eight hroom
  obtain ⟨t, hstore, hstored⟩ := Hardware.exists_store (ε := ε) hs
    (show (tf.rsp - 8).toNat + 8 ≤ 0x10000000000000000 by omega)
    (hmapped.mono (by omega) (by omega)) word
  rw [hlower] at hstored
  refine ⟨t, ?_, hstored⟩
  rw [pushSaved_of_le hroom, Action.bind_of_ok hstore]
  rfl

/-- A frame is restored where there is room for two words below its stack pointer. -/
theorem exists_restore (tf : Trapframe) (hs : Separate h.memory) (hroom : 16 ≤ tf.rsp.toNat)
    (hmapped : Mapped h.memory (tf.rsp.toNat - 16) tf.rsp.toNat) :
    ∃ u, (restore tf h : Effect (Hardware σ) ε Unit) = { outcome := .ok (), state := u } ∧
      Restored h tf u := by
  have hupper := toNat_sub_eight (show 8 ≤ tf.rsp.toNat by omega)
  obtain ⟨t, hrip, hstored⟩ := exists_pushSaved (ε := ε) tf hs (by omega)
    (hmapped.mono (by omega) (Nat.le_refl _)) tf.rip
  have hmapped' : Mapped t (tf.rsp.toNat - 16) (tf.rsp.toNat - 8) :=
    (hmapped.congr hstored.mapped).mono (Nat.le_refl _) (Nat.sub_le _ _)
  obtain ⟨t', hflags, hstored'⟩ := exists_pushSaved (ε := ε) (h := { h with memory := t })
    { tf with rsp := tf.rsp - 8 } hstored.separate (by rw [hupper]; omega)
    (by rwa [hupper, Nat.sub_sub]) tf.rflags
  rw [hupper, Nat.sub_sub] at hstored'
  have hholds : Holds t' (tf.rsp.toNat - 8) (Word.toBytes tf.rip) :=
    hstored.holds.congr fun a hle hlt => hstored'.others a (.inr (by omega))
  set loaded : Processor := { h.cpu with
    regs := tf.regs, es := tf.es.toUInt16, ds := tf.ds.toUInt16, rsp := tf.rsp }
  refine ⟨⟨{ loaded with rflags := tf.rflags, rip := tf.rip }, t'⟩, ?_,
    rfl, hholds, hstored'.holds, fun a ha => ?_⟩
  · rw [restore, Action.bind_of_ok hrip, Action.bind_of_ok hflags, Hardware.bind_onCpu_apply,
      foldl_restoreSteps]
    exact popReturn_eq (p := loaded) hroom hstored'.holds hholds
  · rw [hstored'.others a (by omega), hstored.others a (by omega)]

/-- However storing a word below the saved stack pointer ends, no other byte is changed. -/
theorem frame_pushSaved (tf : Trapframe) (hs : Separate h.memory) (hroom : 8 ≤ tf.rsp.toNat)
    (word : UInt64) :
    let pushed := (pushSaved tf word h : Effect (Hardware σ) ε Trapframe)
    Separate pushed.state.memory ∧
      (∀ a : UInt64, a.toNat < tf.rsp.toNat - 8 ∨ tf.rsp.toNat ≤ a.toNat →
        byte? pushed.state.memory a = byte? h.memory a) ∧
      ∀ tf', pushed.outcome = .ok tf' → tf' = { tf with rsp := tf.rsp - 8 } := by
  intro pushed
  have htop := tf.rsp.toNat_lt
  have hlower := toNat_sub_eight hroom
  have hpushed : pushed = _ := congrFun (pushSaved_of_le hroom word) h
  have hstate : pushed.state =
      (Hardware.store (tf.rsp - 8) word h : Effect (Hardware σ) ε Unit).state := by
    rw [hpushed]
    exact Action.bind_keeps (P := fun u => u = _) rfl fun _ _ => rfl
  obtain ⟨hseparate, hothers⟩ := Hardware.frame_store (ε := ε) hs
    (show (tf.rsp - 8).toNat + 8 ≤ 0x10000000000000000 by omega) word
  rw [hstate]
  refine ⟨hseparate, fun a ha => hothers a (by omega), fun tf' htf' => ?_⟩
  rw [hpushed] at htf'
  obtain ⟨_, -, hvalue⟩ := Action.bind_eq_ok_iff.1 htf'
  cases hvalue
  rfl

/-- However restoring a frame ends, no byte but the sixteen below its stack pointer is changed. -/
theorem frame_restore (tf : Trapframe) (hs : Separate h.memory) (hroom : 16 ≤ tf.rsp.toNat) {a : UInt64}
    (ha : a.toNat < tf.rsp.toNat - 16 ∨ tf.rsp.toNat ≤ a.toNat) :
    byte? (restore tf h : Effect (Hardware σ) ε Unit).state.memory a = byte? h.memory a := by
  let P : Hardware σ → Prop := fun v => byte? v.memory a = byte? h.memory a
  have hupper := toNat_sub_eight (show 8 ≤ tf.rsp.toNat by omega)
  obtain ⟨hs, hfirst, hlowered⟩ := frame_pushSaved (ε := ε) tf hs (by omega) tf.rip
  refine Action.bind_keeps (P := P) (hfirst a (by omega)) fun tf' htf' => ?_
  rw [hlowered tf' htf']
  obtain ⟨-, hsecond, -⟩ := frame_pushSaved (ε := ε) { tf with rsp := tf.rsp - 8 } hs
    (by rw [hupper]; omega) tf.rflags
  have hpushed := (hsecond a (by rw [hupper]; omega)).trans (hfirst a (by omega))
  refine Action.bind_keeps (P := P) hpushed fun _ _ => ?_
  -- what follows the two stores reads memory and does not change it
  refine Eq.trans (congrArg (byte? · a) ?_) hpushed
  refine (Hardware.keepsMemory_onCpu _).bind (fun _ => ?_) _
  refine Hardware.keepsMemory_pop.bind fun _ => (Hardware.keepsMemory_onCpu _).bind fun _ => ?_
  exact Hardware.keepsMemory_pop.bind fun _ => Hardware.keepsMemory_onCpu _

/-- The frame of a caller brings its registers back. -/
theorem Entered.exists_restore (he : Entered h returnAddr) {later : Hardware σ}
    (hs : Separate later.memory)
    (hmapped : Mapped later.memory (h.cpu.rsp.toNat - 8) (h.cpu.rsp.toNat + 8)) :
    ∃ u, (restore (h.cpu.frame returnAddr) later : Effect (Hardware σ) ε Unit) =
        { outcome := .ok (), state := u } ∧ Resumed h returnAddr later u := by
  have htop := he.top
  have hroom := he.room
  have hrsp : (h.cpu.frame returnAddr).rsp.toNat = h.cpu.rsp.toNat + 8 := Word.toNat_add htop
  obtain ⟨u, hrestore, hu⟩ := Cpu.exists_restore (ε := ε) (h.cpu.frame returnAddr) hs (by omega)
    (hmapped.mono (by omega) (by omega))
  have hholds : Holds u.memory h.cpu.rsp.toNat (Word.toBytes returnAddr) := by
    have hrip := hu.holds
    rwa [hrsp, Nat.add_sub_cancel] at hrip
  refine ⟨u, hrestore, ?_, fun a hle hlt => ?_, fun a ha => hu.others a (.inr (by omega))⟩
  · rw [hu.cpu_eq]
    simp only [Processor.frame, UInt16.toUInt16_toUInt64]
  · rw [hholds a hle (by rwa [Word.size_toBytes]), he.returnAddr a hle (by rwa [Word.size_toBytes])]

/-- A caller that has called goes on exactly where it left, whenever its frame is restored: with its
registers, behind the call, and with everything on its stack as it was left. -/
theorem resume_exact (he : Entered h returnAddr) (after : UInt64) :
    ∃ u, (save after h : Effect (Hardware σ) ε Trapframe) =
        { outcome := .ok (h.cpu.frame returnAddr), state := u } ∧ Saved h returnAddr u ∧
      ∀ later : Hardware σ, Separate later.memory →
        Mapped later.memory (h.cpu.rsp.toNat - 8) (h.cpu.rsp.toNat + 8) →
        ∃ v, (restore (h.cpu.frame returnAddr) later : Effect (Hardware σ) ε Unit) =
            { outcome := .ok (), state := v } ∧ Resumed h returnAddr later v ∧
          ((∀ a : UInt64, h.cpu.rsp.toNat ≤ a.toNat → byte? later.memory a = byte? u.memory a) →
            ∀ a : UInt64, h.cpu.rsp.toNat ≤ a.toNat → byte? v.memory a = byte? h.memory a) := by
  obtain ⟨u, hsave, hu⟩ := he.exists_save (ε := ε) after
  refine ⟨u, hsave, hu, fun later hs hmapped => ?_⟩
  obtain ⟨v, hrestore, hv⟩ := he.exists_restore (ε := ε) hs hmapped
  refine ⟨v, hrestore, hv, fun hsame => hv.above_eq fun a ha => ?_⟩
  rw [hsame a ha, hu.above a ha]

/-- A caller whose stack pointer lies on another page than its frame goes on at once. -/
theorem resume_exact_two_pages : ∃ h : Hardware Memory.SparseSpace,
    Entered h 0x1111111111111111 ∧ ∃ u v,
      (save 0 h : Effect (Hardware Memory.SparseSpace) Empty Trapframe) =
        { outcome := .ok (h.cpu.frame 0x1111111111111111), state := u } ∧
      (restore (h.cpu.frame 0x1111111111111111) u : Effect (Hardware Memory.SparseSpace) Empty Unit) =
        { outcome := .ok (), state := v } ∧
      Resumed h 0x1111111111111111 u v ∧
      ∀ a : UInt64, h.cpu.rsp.toNat ≤ a.toNat → byte? v.memory a = byte? h.memory a := by
  let memory : Memory.SparseSpace := PageStore.setPage
    (PageStore.setPage {} 0 (Memory.Page.fill 0x11)) 0x1000 (Memory.Page.fill 0x11)
  have hbyte : ∀ a : UInt64, a.toNat < 8192 → byte? memory a = some 0x11 := by
    intro a ha
    have hbase : Memory.pageBase a = 0x1000 ∨ Memory.pageBase a = 0 := by
      simp only [← UInt64.toNat_inj, Memory.toNat_pageBase, UInt64.reduceToNat]
      omega
    rw [Memory.byte?_setPage_fill, Memory.byte?_setPage_fill]
    rcases hbase with hbase | hbase <;> simp [hbase]
  let h : Hardware Memory.SparseSpace :=
    { cpu := { rsp := 0x1004, rflags := 0x202, ds := 16, regs := { rax := 1, rdi := 2 } }, memory }
  have hrsp : h.cpu.rsp.toNat = 4100 := rfl
  have he : Entered h 0x1111111111111111 := {
    separate := trivial
    room := by omega
    top := by omega
    mapped := fun a _ ha => by
      rw [hbyte a (by omega)]
      rfl
    returnAddr := by
      intro a hle hlt
      rw [Word.size_toBytes] at hlt
      have hbytes : ∀ k < 8, (Word.toBytes 0x1111111111111111).getD k 0 = 0x11 := by decide
      rw [hbytes _ (by omega)]
      exact hbyte a (by omega) }
  obtain ⟨u, hsave, hu, hresume⟩ := resume_exact (ε := Empty) he 0
  obtain ⟨v, hrestore, hv, habove⟩ := hresume u hu.separate fun a _ ha => by
    rw [hu.mapped, hbyte a (by omega)]
    rfl
  exact ⟨h, he, u, v, hsave, hrestore, hv, habove fun _ _ => rfl⟩

end EnvKernel.Cpu
