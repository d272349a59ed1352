import EnvKernel.Proofs.Memory.Store

/-!
Words of memory and the stack. `Stored` says all that storing a word does to memory; loads, stores, pushes
and pops of the processor are told with it and with `HoldsWords`, which says that words lie in memory one
behind the other. Nothing behind this module depends on how memory is kept in pages.
-/

namespace EnvKernel.Memory

variable {σ : Type} [PageStore σ] {s t : σ} {start : Nat} {word : UInt64} {words : List UInt64}

/-- Memory `s` with a word stored at address number `start`. -/
structure Stored [LawfulPageStore σ] (s : σ) (start : Nat) (word : UInt64) (t : σ) : Prop where
  separate : Separate t
  holds : Holds t start (Word.toBytes word)
  others : ∀ a : UInt64, a.toNat < start ∨ start + 8 ≤ a.toNat → byte? t a = byte? s a
  mapped : ∀ a : UInt64, (byte? t a).isSome = (byte? s a).isSome

/-- The words lie in memory from address number `start` on. -/
def HoldsWords (s : σ) (start : Nat) (words : List UInt64) : Prop :=
  ∀ k word, words[k]? = some word → Holds s (start + 8 * k) (Word.toBytes word)

/-- What lies in memory depends only on its own bytes. -/
theorem Holds.congr {bytes : Array UInt8} (h : Holds s start bytes)
    (hsame : ∀ a : UInt64, start ≤ a.toNat → a.toNat < start + bytes.size → byte? t a = byte? s a) :
    Holds t start bytes := by
  intro a hle hlt
  rw [hsame a hle hlt]
  exact h a hle hlt

theorem HoldsWords.congr (h : HoldsWords s start words)
    (hsame : ∀ a : UInt64, start ≤ a.toNat → a.toNat < start + 8 * words.length →
      byte? t a = byte? s a) : HoldsWords t start words := by
  intro k word hword
  obtain ⟨hk, -⟩ := List.getElem?_eq_some_iff.1 hword
  refine (h k word hword).congr fun a hle hlt => hsame a (by omega) ?_
  rw [Word.size_toBytes] at hlt
  omega

theorem holdsWords_nil : HoldsWords s start [] := by
  intro k word hword
  cases hword

theorem holdsWords_cons : HoldsWords s start (word :: words) ↔
    Holds s start (Word.toBytes word) ∧ HoldsWords s (start + 8) words := by
  constructor
  · intro h
    refine ⟨h 0 word rfl, fun k w hw => ?_⟩
    have hnext := h (k + 1) w hw
    rwa [show start + 8 * (k + 1) = start + 8 + 8 * k by omega] at hnext
  · rintro ⟨hfirst, hrest⟩ (- | k) w hw
    · cases hw
      exact hfirst
    · have hnext := hrest k w hw
      rwa [show start + 8 + 8 * k = start + 8 * (k + 1) by omega] at hnext

/-- Storing one of the words of a list replaces it. -/
theorem HoldsWords.set [LawfulPageStore σ] (h : HoldsWords s start words) {k : Nat}
    (hstored : Stored s (start + 8 * k) word t) : HoldsWords t start (words.set k word) := by
  intro j w hw
  rw [List.getElem?_set] at hw
  split at hw
  · rename_i hkj
    split at hw
    · cases hw
      exact hkj ▸ hstored.holds
    · cases hw
  · refine (h j w hw).congr fun a hle hlt => hstored.others a ?_
    rw [Word.size_toBytes] at hlt
    omega

/-- Words before and behind a word that is stored stay. -/
theorem HoldsWords.stored [LawfulPageStore σ] (h : HoldsWords s start words) {place : Nat}
    (hstored : Stored s place word t) (hout : place + 8 ≤ start ∨ start + 8 * words.length ≤ place) :
    HoldsWords t start words :=
  h.congr fun a _ _ => hstored.others a (by omega)

end EnvKernel.Memory

namespace EnvKernel.Cpu

open Env (Trapframe)
open Memory (PageStore LawfulPageStore Holds HoldsWords Mapped Stored Separate byte?)

/-- The address of the word below. -/
theorem toNat_sub_eight {x : UInt64} (h : 8 ≤ x.toNat) : (x - 8).toNat = x.toNat - 8 :=
  Word.toNat_sub h

namespace Hardware

variable {σ ε α β : Type}

@[simp] theorem bind_onCpu_apply (f : Processor → Processor) (x : Unit → Action (Hardware σ) ε α)
    (h : Hardware σ) : (onCpu f >>= x) h = x () { h with cpu := f h.cpu } := rfl

/-- Whatever the state and however the computation ends, memory is as it was. -/
def KeepsMemory (x : Action (Hardware σ) ε α) : Prop := ∀ s, (x s).state.memory = s.memory

theorem KeepsMemory.bind {x : Action (Hardware σ) ε α} {f : α → Action (Hardware σ) ε β}
    (hx : KeepsMemory x) (hf : ∀ a, KeepsMemory (f a)) : KeepsMemory (x >>= f) := fun s =>
  Action.bind_keeps (P := fun u : Hardware σ => u.memory = s.memory) (hx s) fun a _ => (hf a _).trans (hx s)

theorem keepsMemory_onCpu (f : Processor → Processor) :
    KeepsMemory (onCpu f : Action (Hardware σ) ε Unit) := fun _ => rfl

variable [PageStore σ] {h : Hardware σ} {addr word : UInt64} {words : List UInt64}

theorem missingAddr?_eq_none (hfit : addr.toNat + 8 ≤ 0x10000000000000000)
    (hmapped : Mapped h.memory addr.toNat (addr.toNat + 8)) : missingAddr? h.memory addr = none := by
  rw [missingAddr?, Memory.missing?_touched hfit hmapped, Option.map_none]

/-- A word that lies in memory is loaded. -/
theorem load_eq (hfit : addr.toNat + 8 ≤ 0x10000000000000000)
    (hword : Holds h.memory addr.toNat (Word.toBytes word)) :
    (load addr h : Effect (Hardware σ) ε UInt64) = { outcome := .ok word, state := h } := by
  have hmapped : Mapped h.memory addr.toNat (addr.toNat + 8) := fun a hle hlt => by
    rw [hword a hle (by rwa [Word.size_toBytes])]
    rfl
  have hbytes := Memory.copyOut_of_holds hword (by rwa [Word.size_toBytes])
  rw [Word.size_toBytes] at hbytes
  simp only [load, missingAddr?_eq_none hfit hmapped, hbytes, Word.ofBytes_toBytes]

/-- The words that lie in memory are loaded in order. -/
theorem loadWords_eq (hfit : addr.toNat + 8 * words.length < 0x10000000000000000)
    (hwords : HoldsWords h.memory addr.toNat words) :
    (loadWords addr words.length h : Effect (Hardware σ) ε (List UInt64)) =
      { outcome := .ok words, state := h } := by
  induction words generalizing addr with
  | nil => rfl
  | cons word rest ih =>
    obtain ⟨hfirst, hrest⟩ := Memory.holdsWords_cons.1 hwords
    rw [List.length_cons] at hfit
    have hnext : (addr + 8).toNat = addr.toNat + 8 :=
      Word.toNat_add (show addr.toNat + 8 < _ by omega)
    rw [List.length_cons, loadWords, Action.bind_of_ok (load_eq (by omega) hfirst),
      Action.bind_of_ok (ih (by omega) (by rwa [hnext]))]
    rfl

/-- A frame that lies in memory is loaded. -/
theorem loadFrame_eq {tf : Trapframe} (hfit : addr.toNat + 192 < 0x10000000000000000)
    (hframe : HoldsWords h.memory addr.toNat tf.words.toList) :
    (loadFrame addr h : Effect (Hardware σ) ε Trapframe) = { outcome := .ok tf, state := h } := by
  have hlength : tf.words.toList.length = 24 := Vector.length_toList
  have hload := loadWords_eq (ε := ε) (by rwa [hlength]) hframe
  rw [hlength] at hload
  have hwords : (Vector.ofFn fun i : Fin 24 => tf.words.toList.getD i.val 0) = tf.words := by
    ext i hi
    simp
  rw [loadFrame, Action.bind_of_ok hload, hwords]
  rfl

section Writing

variable [LawfulPageStore σ] (hs : Separate h.memory)

include hs

/-- A word is stored where all of its bytes are there. -/
theorem exists_store (hfit : addr.toNat + 8 ≤ 0x10000000000000000)
    (hmapped : Mapped h.memory addr.toNat (addr.toNat + 8)) (word : UInt64) :
    ∃ t, (store addr word h : Effect (Hardware σ) ε Unit) =
        { outcome := .ok (), state := { h with memory := t } } ∧
      Stored h.memory addr.toNat word t := by
  have hsize : (Word.toBytes word).size = 8 := Word.size_toBytes word
  refine ⟨Memory.copyIn h.memory addr (Word.toBytes word), ?_, ?_⟩
  · simp only [store, missingAddr?_eq_none hfit hmapped]
  · exact {
      separate := Memory.separate_copyIn hs (by omega)
      holds := Memory.holds_copyIn hs (by omega) (by rwa [hsize])
      others := fun a ha => by
        rw [Memory.byte?_copyIn hs (by omega), if_neg]
        omega
      mapped := Memory.isSome_byte?_copyIn hs (by omega) }

/-- However a store ends, no byte but those of the word is changed. -/
theorem frame_store (hfit : addr.toNat + 8 ≤ 0x10000000000000000) (word : UInt64) :
    let u := (store addr word h : Effect (Hardware σ) ε Unit).state
    Separate u.memory ∧ ∀ a : UInt64, a.toNat < addr.toNat ∨ addr.toNat + 8 ≤ a.toNat →
      byte? u.memory a = byte? h.memory a := by
  have hsize : (Word.toBytes word).size = 8 := Word.size_toBytes word
  simp only [store]
  split
  · exact ⟨hs, fun _ _ => rfl⟩
  · refine ⟨Memory.separate_copyIn hs (by omega), fun a ha => ?_⟩
    rw [Memory.byte?_copyIn hs (by omega), if_neg]
    omega

/-- A word is pushed where there is room for it below the stack pointer. -/
theorem exists_push (hroom : 8 ≤ h.cpu.rsp.toNat)
    (hmapped : Mapped h.memory (h.cpu.rsp.toNat - 8) h.cpu.rsp.toNat) (word : UInt64) :
    ∃ t, (push word h : Effect (Hardware σ) ε Unit) =
        { outcome := .ok (), state := ⟨{ h.cpu with rsp := h.cpu.rsp - 8 }, t⟩ } ∧
      Stored h.memory (h.cpu.rsp.toNat - 8) word t := by
  have htop := toNat_sub_eight hroom
  have hlt := h.cpu.rsp.toNat_lt
  obtain ⟨t, hstore, hstored⟩ := exists_store (ε := ε) hs
    (show (h.cpu.rsp - 8).toNat + 8 ≤ 0x10000000000000000 by omega)
    (hmapped.mono (by omega) (by omega)) word
  refine ⟨t, ?_, htop ▸ hstored⟩
  rw [push, Action.bind_state_apply, Action.bind_of_ok hstore]
  rfl

end Writing

/-- The word at the stack pointer is popped. -/
theorem pop_eq (hfit : h.cpu.rsp.toNat + 8 ≤ 0x10000000000000000)
    (hword : Holds h.memory h.cpu.rsp.toNat (Word.toBytes word)) :
    (pop h : Effect (Hardware σ) ε UInt64) =
      { outcome := .ok word, state := { h with cpu := { h.cpu with rsp := h.cpu.rsp + 8 } } } := by
  rw [pop, Action.bind_state_apply, Action.bind_of_ok (load_eq hfit hword)]
  rfl

theorem keepsMemory_load (addr : UInt64) : KeepsMemory (load addr : Action (Hardware σ) ε UInt64) := by
  intro s
  unfold load
  split <;> rfl

theorem keepsMemory_pop : KeepsMemory (pop : Action (Hardware σ) ε UInt64) := fun s =>
  (keepsMemory_load s.cpu.rsp).bind (fun _ => (keepsMemory_onCpu _).bind fun _ _ => rfl) s

end Hardware

end EnvKernel.Cpu
