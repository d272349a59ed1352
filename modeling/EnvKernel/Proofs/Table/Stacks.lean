import EnvKernel.Proofs.Cpu.Resume
import EnvKernel.Proofs.Table.Run
import Mathlib.Data.Nat.Bitwise

/-!
Stacks that share memory. `privateStacks_run` is the main statement: a table is made exactly if the stacks
of all slots have room over the natural numbers, and in every table that can come about from it each
environment has a stack that no other has. A new environment starts at the end of its own, and with sixteen
bytes or more the two words that are stored to make it run lie on it.
-/

namespace EnvKernel

namespace Cpu

open Env (Trapframe)
open Memory (PageStore LawfulPageStore Holds Mapped Separate byte?)

/-- Restoring the frame stores two words in the range, and nothing else, however it ends. -/
structure StartsWithin (range : Memory.Range) (tf : Trapframe) : Prop where
  room : range.start.toNat + 16 ≤ range.stop.toNat
  noPanic : ∀ {σ : Type} [PageStore σ] (h : Hardware σ) p,
    (restore tf h : Effect (Hardware σ) Empty Unit).outcome ≠ .stop (.panic p)
  others : ∀ {σ : Type} [PageStore σ] [LawfulPageStore σ] (h : Hardware σ), Separate h.memory →
    ∀ a, ¬ range.Contains a →
      byte? (restore tf h : Effect (Hardware σ) Empty Unit).state.memory a = byte? h.memory a
  stores : ∀ {σ : Type} [PageStore σ] [LawfulPageStore σ] (h : Hardware σ), Separate h.memory →
    Mapped h.memory range.start.toNat range.stop.toNat →
      ∃ u, (restore tf h : Effect (Hardware σ) Empty Unit) = { outcome := .ok (), state := u } ∧
        Holds u.memory (range.stop.toNat - 8) (Word.toBytes tf.rip) ∧
        Holds u.memory (range.stop.toNat - 16) (Word.toBytes tf.rflags)

/-- A frame whose stack pointer is the end of a range of sixteen bytes or more. -/
theorem startsWithin_of_rsp_eq {range : Memory.Range} {tf : Trapframe}
    (hroom : range.start.toNat + 16 ≤ range.stop.toNat) (hrsp : tf.rsp = range.stop) :
    StartsWithin range tf where
  room := hroom
  noPanic h p := neverPanics_restore (by rw [hrsp]; omega) h p
  others h hs a ha := by
    refine frame_restore tf hs (by rw [hrsp]; omega) ?_
    rw [Memory.Range.Contains] at ha
    rw [hrsp]
    omega
  stores h hs hmapped := by
    obtain ⟨u, hu, hrestored⟩ := exists_restore (ε := Empty) tf hs (by rw [hrsp]; omega)
      (by rw [hrsp]; exact hmapped.mono (by omega) (Nat.le_refl _))
    exact ⟨u, hu, hrsp ▸ hrestored.holds, hrsp ▸ hrestored.flags⟩

end Cpu

namespace Env

open Memory (AddressSpace)
open Cpu (StartsWithin)

/-- The range is the stack of a slot where stacks of `size` bytes lie below each other from `top` down. -/
structure StackOf (top size : UInt64) (slot : Nat) (range : Memory.Range) : Prop where
  start_eq : range.start.toNat + (slot + 1) * size.toNat = top.toNat
  stop_eq : range.stop.toNat + slot * size.toNat = top.toNat

namespace StackOf

variable {top size : UInt64} {slot slot' : Nat} {range range' : Memory.Range}

theorem size_eq (h : StackOf top size slot range) :
    range.stop.toNat = range.start.toNat + size.toNat := by
  have hstart := h.start_eq
  have hstop := h.stop_eq
  rw [Nat.succ_mul] at hstart
  omega

theorem unique (h : StackOf top size slot range) (h' : StackOf top size slot range') : range = range' := by
  have hstart : range.start = range'.start :=
    UInt64.toNat_inj.1 (Nat.add_right_cancel (h.start_eq.trans h'.start_eq.symm))
  have hstop : range.stop = range'.stop :=
    UInt64.toNat_inj.1 (Nat.add_right_cancel (h.stop_eq.trans h'.stop_eq.symm))
  cases range
  cases range'
  cases hstart
  cases hstop
  rfl

/-- The stack of a later slot ends where that of an earlier one starts, or further below. -/
theorem stop_le_start (h : StackOf top size slot range) (h' : StackOf top size slot' range')
    (hlt : slot < slot') : range'.stop.toNat ≤ range.start.toNat := by
  have hmul : (slot + 1) * size.toNat ≤ slot' * size.toNat := Nat.mul_le_mul_right _ hlt
  have hstart := h.start_eq
  have hstop := h'.stop_eq
  omega

theorem disjoint (h : StackOf top size slot range) (h' : StackOf top size slot' range')
    (hne : slot ≠ slot') : range.Disjoint range' := by
  rintro a ⟨hstart, hstop⟩ ⟨hstart', hstop'⟩
  rcases Nat.lt_or_gt_of_ne hne with hlt | hlt
  · have hbelow := h.stop_le_start h' hlt
    omega
  · have hbelow := h'.stop_le_start h hlt
    omega

/-- The stacks of all slots lie between the last one's start and the top. -/
theorem inside (h : StackOf top size slot range) {n : Nat} (hslot : slot < n) :
    top.toNat - n * size.toNat ≤ range.start.toNat ∧ range.stop.toNat ≤ top.toNat := by
  have hmul : (slot + 1) * size.toNat ≤ n * size.toNat := Nat.mul_le_mul_right _ hslot
  have hstart := h.start_eq
  have hstop := h.stop_eq
  omega

end StackOf

namespace EnvTable

variable {n : Nat} {t : EnvTable n} {top size : UInt64} {id : EnvId} {i : Fin n}

/-! ### Which tables are made -/

/-- The numbers whose bits other than the highest are clear. -/
theorem isCapacity_iff : IsCapacity n ↔ ∃ k ≤ 12, n = 2 ^ k := by
  constructor
  · rintro ⟨hne, hbits, hle⟩
    have hlow := Nat.log2_self_le hne
    have hhigh := @Nat.lt_log2_self n
    refine ⟨n.log2, ?_, ?_⟩
    · rw [← Nat.pow_le_pow_iff_right (show 1 < 2 by decide)]
      exact Nat.le_trans hlow hle
    · -- otherwise the highest bit is set in the number before as well
      by_contra hpow
      have hbit := Nat.testBit_of_two_pow_le_and_two_pow_add_one_gt hlow hhigh
      have hbefore := Nat.testBit_of_two_pow_le_and_two_pow_add_one_gt
        (show 2 ^ n.log2 ≤ n - 1 by omega) (show n - 1 < 2 ^ (n.log2 + 1) by omega)
      have hand := Nat.testBit_and n (n - 1) n.log2
      rw [hbits, hbit, hbefore, Nat.zero_testBit] at hand
      cases hand
  · rintro ⟨k, hk, rfl⟩
    refine ⟨(Nat.two_pow_pos k).ne', ?_, ?_⟩
    · rw [Nat.and_two_pow_sub_one_eq_mod, Nat.mod_self]
    · exact Nat.pow_le_pow_right (by decide) hk

/-- The chain of checked operations comes to what it should be over the numbers. -/
theorem fits_shared_iff (hne : n ≠ 0) (hn : n < 2 ^ 64) :
    fits n (.shared top size) = true ↔ n * size.toNat ≤ top.toNat := by
  refine ⟨fun h => shared_room h hn, fun h => ?_⟩
  have htop := top.toNat_lt
  obtain ⟨m, rfl⟩ := Nat.exists_eq_succ_of_ne_zero hne
  rw [Nat.succ_mul] at h
  have hword : (UInt64.ofNat m).toNat = m := by
    rw [UInt64.toNat_ofNat', Nat.mod_eq_of_lt (by omega)]
  have hmul : Word.mul? (UInt64.ofNat m) size = some (UInt64.ofNat m * size) :=
    if_pos (by rw [hword]; omega)
  have hbelow := Word.toNat_mul? hmul
  rw [hword] at hbelow
  have hlast : Word.sub? top (UInt64.ofNat m * size) = some (top - UInt64.ofNat m * size) :=
    if_pos (by omega)
  have hvalue := Word.toNat_sub? hlast
  have hlowest : Word.sub? (top - UInt64.ofNat m * size) size = some (top - UInt64.ofNat m * size - size) :=
    if_pos (by omega)
  simp [fits, lowestStack?, hmul, hlast, hlowest]

/-- Two stacks of half of all addresses have no room, although their sizes add up to zero as words. -/
example : fits 2 (.shared 0x1000 0x8000000000000000) = false := by decide

theorem exists_new_iff {config : Config} :
    (∃ t : EnvTable n, new n config = .ok t) ↔ IsCapacity n ∧ fits n config.layout = true := by
  unfold new
  split
  · rename_i hcapacity
    split
    · rename_i hfits
      exact iff_of_true ⟨_, rfl⟩ ⟨hcapacity, hfits⟩
    · rename_i hfits
      exact iff_of_false nofun fun h => hfits h.2
  · rename_i hcapacity
    exact iff_of_false nofun fun h => hcapacity h.1

/-! ### Stacks of environments -/

/-- The environment of a handle starts at the end of its own stack. -/
def StartsOnOwnStack (t : EnvTable n) (id : EnvId) : Prop :=
  ∃ i range, t.resolveEnv id = .ok i ∧ (stackRegion id t).outcome = .ok range ∧ t[i].tf.rsp = range.stop

/-- Environments of table `t` have stacks of their own, which lie below each other from `top` down. -/
structure PrivateStacks (top size : UInt64) (t : EnvTable n) : Prop where
  stack : ∀ id i, t.resolveEnv id = .ok i → ∃ range,
    stackRegion id t = { outcome := .ok range, state := t } ∧ StackOf top size i range
  disjoint : ∀ id id' i i' range range', t.resolveEnv id = .ok i → t.resolveEnv id' = .ok i' → i ≠ i' →
    (stackRegion id t).outcome = .ok range → (stackRegion id' t).outcome = .ok range' →
      range.Disjoint range'
  inside : ∀ id range, (stackRegion id t).outcome = .ok range →
    top.toNat - n * size.toNat ≤ range.start.toNat ∧ range.stop.toNat ≤ top.toNat
  alloc : ∀ parent kind, let made := alloc parent kind t
    made.outcome = .error .noFreeSlots ∨
      ∃ id, made.outcome = .ok id ∧ made.state.StartsOnOwnStack id
  create : ∀ {σ : Type} [AddressSpace σ] (space : σ) (binder : Binder) (binary : Bytes) (kind : Kind) id,
    let made := create binder binary kind ⟨t, space⟩
    made.outcome = .ok id → made.state.envs.StartsOnOwnStack id
  /-- An environment that starts at the end of its stack is made to run with words on its own stack. -/
  pushes : 16 ≤ size.toNat → ∀ id range, (stackRegion id t).outcome = .ok range →
    ∀ tf : Trapframe, tf.rsp = range.stop → StartsWithin range tf

variable (h : Sound t) (hlayout : t.config.layout = .shared top size)

include h hlayout

/-- Every slot has a stack, computed without leaving the range of words. -/
theorem Sound.exists_stackOf (i : Fin n) : ∃ range, StackOf top size i range ∧
    stackTop t.config.layout i.val = .ok range.stop ∧
    Word.sub? range.stop t.config.layout.size = some range.start := by
  have hslot := h.slot_lt i
  have hroom := h.shared_room hlayout i
  obtain ⟨rsp, hrsp, hvalue⟩ :=
    stackTop_shared (show i.val < 2 ^ 64 by omega) (Nat.le_of_add_right_le hroom)
  have hsub : Word.sub? rsp size = some (rsp - size) := if_pos (by omega)
  have hstart := Word.toNat_sub? hsub
  refine ⟨⟨rsp - size, rsp⟩, ⟨?_, ?_⟩, ?_, ?_⟩
  · rw [Nat.succ_mul]
    dsimp only
    omega
  · dsimp only
    omega
  · rw [hlayout, hrsp]
  · rw [hlayout]
    exact hsub

theorem Sound.exists_stackRegion (hid : t.resolveEnv id = .ok i) : ∃ range,
    stackRegion id t = { outcome := .ok range, state := t } ∧ StackOf top size i range := by
  obtain ⟨range, hstack, htop, hbottom⟩ := h.exists_stackOf hlayout i
  exact ⟨range, stackRegion_of_some hid htop hbottom, hstack⟩

/-- A stack that is told is the one of a slot. -/
theorem Sound.stackOf_of_stackRegion {range : Memory.Range}
    (hregion : (stackRegion id t).outcome = .ok range) :
    ∃ i, t.resolveEnv id = .ok i ∧ StackOf top size i range := by
  cases hid : t.resolveEnv id with
  | error e =>
    rw [stackRegion, hid] at hregion
    cases hregion
  | ok i =>
    obtain ⟨own, hown, hstack⟩ := h.exists_stackRegion hlayout hid
    rw [hown] at hregion
    cases hregion
    exact ⟨i, rfl, hstack⟩

/-- The environment that a slot was handed out to starts on its own stack, also after it was prepared. -/
theorem Sound.startsOnOwnStack {u : EnvTable n} {binary : Bytes} {parent : EnvId} {kind : Kind}
    {rsp : UInt64} (hhead : t.freeHead = some i) (hrsp : stackTop t.config.layout i.val = .ok rsp)
    (hu : Prepared (t.take i (t.newcomer i parent kind rsp)) i binary u) :
    u.StartsOnOwnStack (t[i].id.next i.val) := by
  obtain ⟨hsound, hid⟩ := h.resolveEnv_prepared hhead hrsp hu
  have hconfig : u.config = t.config := hu.others.2.2.2.2
  obtain ⟨range, -, htop, hbottom⟩ := hsound.exists_stackOf (hconfig ▸ hlayout) i
  refine ⟨i, range, hid, congrArg Effect.outcome (stackRegion_of_some hid htop hbottom), ?_⟩
  rw [hconfig, hrsp] at htop
  cases htop
  rcases hu with rfl | ⟨rip, rfl⟩
  · rw [slots_take_self]
    rfl
  · rw [load, slots_modify_self, slots_take_self]
    rfl

theorem Sound.privateStacks : PrivateStacks top size t where
  stack _ _ hid := h.exists_stackRegion hlayout hid
  disjoint id id' i i' range range' hid hid' hne hregion hregion' := by
    obtain ⟨own, hown, hstack⟩ := h.exists_stackRegion hlayout hid
    obtain ⟨own', hown', hstack'⟩ := h.exists_stackRegion hlayout hid'
    rw [hown] at hregion
    rw [hown'] at hregion'
    cases hregion
    cases hregion'
    exact hstack.disjoint hstack' fun hval => hne (Fin.ext hval)
  inside id range hregion := by
    obtain ⟨i, -, hstack⟩ := h.stackOf_of_stackRegion hlayout hregion
    exact hstack.inside i.isLt
  alloc parent kind := by
    intro made
    cases hhead : t.freeHead with
    | none => exact .inl (congrArg Effect.outcome (alloc_of_empty hhead parent kind))
    | some i =>
      obtain ⟨rsp, hrsp⟩ := h.exists_stackTop i
      have hmade : made = _ := alloc_of_head hhead hrsp parent kind
      rw [hmade]
      have hprepared : Prepared (t.take i (t.newcomer i parent kind rsp)) i .empty _ := .inl rfl
      exact .inr ⟨_, rfl, h.startsOnOwnStack hlayout hhead hrsp hprepared⟩
  create space binder binary kind id := by
    intro made hok
    cases hhead : t.freeHead with
    | none =>
      have hmade : made = _ := create_of_empty binder hhead binary kind space
      rw [hmade] at hok
      cases hok
    | some i =>
      obtain ⟨rsp, u, hrsp, hprepared, hend⟩ := h.create_cases binder hhead binary kind space
      rcases hend with ⟨hid, henvs⟩ | ⟨how, hstop, -⟩ | ⟨e, herror, -⟩
      · rw [show made.state.envs = u from henvs, Outcome.ok.inj (hok.symm.trans hid)]
        exact h.startsOnOwnStack hlayout hhead hrsp hprepared
      · cases hok.symm.trans hstop
      · cases hok.symm.trans herror
  pushes hroom id range hregion tf hrsp := by
    obtain ⟨i, -, hstack⟩ := h.stackOf_of_stackRegion hlayout hregion
    exact Cpu.startsWithin_of_rsp_eq (by rw [hstack.size_eq]; omega) hrsp

omit h hlayout

/-- A table whose stacks share memory is made exactly if all of them have room, and after any run each
environment has a stack of its own. -/
theorem privateStacks_run (n : Nat) (top size : UInt64) (kernel user : Selectors) :
    let config : Config := { layout := .shared top size, kernel, user }
    ((∃ t : EnvTable n, new n config = .ok t) ↔
        (∃ k ≤ 12, n = 2 ^ k) ∧ n * size.toNat ≤ top.toNat) ∧
      ∀ t : EnvTable n, new n config = .ok t → ∀ ops : List Op, PrivateStacks top size (t.run ops) := by
  intro config
  refine ⟨?_, fun t h ops => ?_⟩
  · rw [exists_new_iff, ← isCapacity_iff]
    refine and_congr_right fun hcapacity => ?_
    have hle : n ≤ 4096 := hcapacity.2.2
    exact fits_shared_iff hcapacity.1 (by omega)
  · have hfresh := fresh_of_new h
    refine (hfresh.sound.run ops).privateStacks ?_
    rw [hfresh.sound.config_run, hfresh.config_eq]

/-- Four stacks of two words that take all memory below them, after two of them were handed out and the first
was handed out again. -/
theorem privateStacks_run_lowest : ∃ t : EnvTable 4,
    new 4 { layout := .shared 0x40 0x10, kernel := ⟨8, 16⟩, user := ⟨8, 16⟩ } = .ok t ∧
      PrivateStacks 0x40 0x10 (t.run [.alloc .none .user, .alloc ⟨0x1000⟩ .user, .switchTo ⟨0x1000⟩,
        .free ⟨0x1000⟩, .create ({} : Memory.SparseSpace) {} .empty .user, .alloc .none .user]) := by
  obtain ⟨hmade, hstacks⟩ := privateStacks_run 4 0x40 0x10 ⟨8, 16⟩ ⟨8, 16⟩
  obtain ⟨t, h⟩ := hmade.2 ⟨⟨2, by decide, rfl⟩, by decide⟩
  exact ⟨t, h, hstacks t h _⟩

end EnvTable

end Env

end EnvKernel
