import EnvKernel.Env.Table
import Mathlib.Tactic.Common

/-!
The four ways in which a table changes: the first free slot is handed out, a slot is given back, the
registers or the image of an environment are replaced, and the processor is handed over. `Move` is
one such change together with what it means for the slots, and `Moves` a sequence of them. `Move.fate`
says everything that a move can do to one slot. Whatever holds of a table after every `Move` holds after
every operation, since operations are made of moves.
-/

namespace EnvKernel.Env.EnvTable

variable {n : Nat} (t : EnvTable n) {i j : Fin n}

/-- The table without the processor given to the slot that loses it when slot `i` gets it. -/
def demote (i : Fin n) : EnvTable n :=
  match t.previous? i with
  | none => t
  | some p =>
    if t[p].status = .running then t.modify p fun env => { env with status := .runnable }
    else t

/-- The processor goes to slot `i`. -/
def handOver (i : Fin n) : EnvTable n := (t.demote i).start i

/-! ### Slots after a change -/

theorem slots_modify_self (f : Environment → Environment) :
    (t.modify i f)[i] = f t[i] :=
  Vector.getElem_set_self i.isLt

theorem slots_modify_other (f : Environment → Environment) (h : j ≠ i) :
    (t.modify i f)[j] = t[j] :=
  Vector.getElem_set_ne i.isLt j.isLt fun hij => h (Fin.ext hij.symm)

theorem slots_take_self (env : Environment) : (t.take i env)[i] = env :=
  Vector.getElem_set_self i.isLt

theorem slots_take_other (env : Environment) (h : j ≠ i) :
    (t.take i env)[j] = t[j] :=
  Vector.getElem_set_ne i.isLt j.isLt fun hij => h (Fin.ext hij.symm)

theorem slots_giveBack_self :
    (t.giveBack i)[i] = { t[i] with status := .free, binary := none } :=
  Vector.getElem_set_self i.isLt

theorem slots_giveBack_other (h : j ≠ i) : (t.giveBack i)[j] = t[j] :=
  Vector.getElem_set_ne i.isLt j.isLt fun hij => h (Fin.ext hij.symm)

theorem link_take_self (env : Environment) : (t.take i env).link i = none :=
  Vector.getElem_set_self i.isLt

theorem link_take_other (env : Environment) (h : j ≠ i) :
    (t.take i env).link j = t.link j :=
  Vector.getElem_set_ne i.isLt j.isLt fun hij => h (Fin.ext hij.symm)

theorem link_giveBack_self : (t.giveBack i).link i = t.freeHead :=
  Vector.getElem_set_self i.isLt

theorem link_giveBack_other (h : j ≠ i) : (t.giveBack i).link j = t.link j :=
  Vector.getElem_set_ne i.isLt j.isLt fun hij => h (Fin.ext hij.symm)

theorem slots_start_self : (t.start i)[i] =
    { t[i] with status := .running, runs := t[i].runs + 1 } :=
  Vector.getElem_set_self i.isLt

theorem slots_start_other (h : j ≠ i) : (t.start i)[j] = t[j] :=
  Vector.getElem_set_ne i.isLt j.isLt fun hij => h (Fin.ext hij.symm)

theorem running?_eq_some_iff :
    t.running? = some i ↔ t.current = some i ∧ t[i].status = .running := by
  simp [running?, Option.filter_eq_some_iff]

theorem previous?_eq_some_iff : t.previous? i = some j ↔ t.current = some j ∧ j ≠ i := by
  simp [previous?, Option.filter_eq_some_iff]

theorem demote_of_none (h : t.previous? i = none) : t.demote i = t := by
  rw [demote, h]

theorem demote_of_some {p : Fin n} (h : t.previous? i = some p) : t.demote i =
    if t[p].status = .running then t.modify p fun env => { env with status := .runnable }
    else t := by
  rw [demote, h]

theorem slots_demote_self : (t.demote i)[i] = t[i] := by
  cases hp : t.previous? i with
  | none => rw [demote_of_none t hp]
  | some p =>
    rw [demote_of_some t hp]
    split
    · exact t.slots_modify_other _ (t.previous?_eq_some_iff.1 hp).2.symm
    · rfl

/-- Only the slot that had the processor loses it. -/
theorem slots_demote_other (h : j ≠ i) : (t.demote i)[j] =
    if t.running? = some j then { t[j] with status := .runnable } else t[j] := by
  cases hp : t.previous? i with
  | none =>
    have hrun : ¬ t.running? = some j := by
      rw [running?_eq_some_iff]
      rintro ⟨hc, -⟩
      rw [t.previous?_eq_some_iff.2 ⟨hc, h⟩] at hp
      cases hp
    rw [demote_of_none t hp, if_neg hrun]
  | some p =>
    obtain ⟨hc, -⟩ := t.previous?_eq_some_iff.1 hp
    rw [demote_of_some t hp]
    simp only [running?_eq_some_iff, hc, Option.some.injEq]
    by_cases hj : p = j
    · subst hj
      by_cases hrun : t[p].status = .running
      · rw [if_pos hrun, if_pos ⟨rfl, hrun⟩, slots_modify_self]
      · have hlost : ¬ (p = p ∧ t[p].status = .running) := fun hr => hrun hr.2
        rw [if_neg hrun, if_neg hlost]
    · simp only [hj, false_and, if_false]
      split
      · exact t.slots_modify_other _ (Ne.symm hj)
      · rfl

theorem slots_handOver_self : (t.handOver i)[i] =
    { t[i] with status := .running, runs := t[i].runs + 1 } := by
  rw [handOver, slots_start_self, slots_demote_self]

theorem slots_handOver_other (h : j ≠ i) : (t.handOver i)[j] =
    if t.running? = some j then { t[j] with status := .runnable } else t[j] := by
  rw [handOver, slots_start_other _ h, slots_demote_other t h]

theorem running?_handOver (t : EnvTable n) (i : Fin n) : (t.handOver i).running? = some i := by
  rw [running?_eq_some_iff, slots_handOver_self]
  exact ⟨rfl, rfl⟩

theorem demote_eq (i : Fin n) : t.demote i = { t with slots := (t.demote i).slots } := by
  unfold demote
  split
  · rfl
  · split <;> rfl

@[simp] theorem link_handOver (i : Fin n) : (t.handOver i).link = t.link := by
  rw [handOver, demote_eq]
  rfl

@[simp] theorem freeHead_handOver (i : Fin n) : (t.handOver i).freeHead = t.freeHead := by
  rw [handOver, demote_eq]
  rfl

@[simp] theorem config_handOver (i : Fin n) : (t.handOver i).config = t.config := by
  rw [handOver, demote_eq]
  rfl

end EnvTable

/-! ### Moves -/

/-- What an operation means for a slot. -/
inductive Event (n : Nat) where
  /-- The slot was handed out under a handle. -/
  | issued (slot : Fin n) (id : EnvId)
  | freed (slot : Fin n)
  /-- The slot was given the processor. -/
  | selected (slot : Fin n)
deriving DecidableEq

open EnvTable

/-- One change of a table, with what it means for the slots. -/
inductive Move {n : Nat} : EnvTable n → List (Event n) → EnvTable n → Prop where
  | take {t : EnvTable n} {rsp : UInt64} (i : Fin n) (parent : EnvId) (kind : Kind)
      (head : t.freeHead = some i) (top : stackTop t.config.layout i.val = .ok rsp) :
      Move t [.issued i (t[i].id.next i.val)] (t.take i (t.newcomer i parent kind rsp))
  | giveBack {t : EnvTable n} (i : Fin n) (live : t[i].status ≠ .free) :
      Move t [.freed i] (t.giveBack i)
  /-- The registers or the image of an environment are replaced. -/
  | rewrite {t : EnvTable n} (i : Fin n) (tf : Trapframe) (binary : Option Bytes)
      (live : t[i].status ≠ .free) :
      Move t [] (t.modify i fun env => { env with tf, binary })
  | handOver {t : EnvTable n} (i : Fin n) (ready : t.mayRun i = true) :
      Move t [.selected i] (t.handOver i)

/-- The slot that something happened to. -/
def Event.slot {n : Nat} : Event n → Fin n
  | .issued i _ => i
  | .freed i => i
  | .selected i => i

/-- What a change from table `t` to table `u` does to slot `j`. -/
inductive Fate {n : Nat} (t : EnvTable n) (j : Fin n) (done : List (Event n)) (u : EnvTable n) :
    Prop where
  | kept (env_eq : u[j] = t[j]) (others : ∀ e ∈ done, e.slot ≠ j)
      (current_eq : t.running? = some j → u.current = t.current)
  /-- The slot lost the processor to another one. -/
  | demoted (env_eq : u[j] = { t[j] with status := .runnable }) (others : ∀ e ∈ done, e.slot ≠ j)
      (running : t.running? = some j)
  | taken (parent : EnvId) (kind : Kind) (rsp : UInt64) (env_eq : u[j] = t.newcomer j parent kind rsp)
      (done_eq : done = [.issued j (t[j].id.next j.val)])
      (top : stackTop t.config.layout j.val = .ok rsp)
  | givenBack (env_eq : u[j] = { t[j] with status := .free, binary := none })
      (done_eq : done = [.freed j])
  | rewritten (tf : Trapframe) (binary : Option Bytes) (env_eq : u[j] = { t[j] with tf, binary })
      (done_eq : done = []) (live : t[j].status ≠ .free) (current_eq : u.current = t.current)
  | selected (env_eq : u[j] = { t[j] with status := .running, runs := t[j].runs + 1 })
      (done_eq : done = [.selected j]) (ready : t.mayRun j = true) (current_eq : u.current = some j)

theorem Move.fate {n : Nat} {t u : EnvTable n} {done : List (Event n)} (h : Move t done u)
    (j : Fin n) : Fate t j done u := by
  cases h with
  | take i parent kind head top =>
    by_cases hj : j = i
    · subst hj
      exact .taken parent kind _ (t.slots_take_self _) rfl top
    · exact .kept (t.slots_take_other _ hj) (by simp [Event.slot, Ne.symm hj]) fun _ => rfl
  | giveBack i live =>
    by_cases hj : j = i
    · subst hj
      exact .givenBack t.slots_giveBack_self rfl
    · exact .kept (t.slots_giveBack_other hj) (by simp [Event.slot, Ne.symm hj]) fun _ => rfl
  | rewrite i tf binary live =>
    by_cases hj : j = i
    · subst hj
      exact .rewritten tf binary (t.slots_modify_self _) rfl live rfl
    · exact .kept (t.slots_modify_other _ hj) nofun fun _ => rfl
  | handOver i ready =>
    have hother := t.slots_handOver_other (i := i) (j := j)
    by_cases hj : j = i
    · subst hj
      exact .selected t.slots_handOver_self rfl ready rfl
    · have hothers : ∀ e ∈ [Event.selected i], e.slot ≠ j := by simp [Event.slot, Ne.symm hj]
      by_cases hrun : t.running? = some j
      · exact .demoted (by rw [hother hj, if_pos hrun]) hothers hrun
      · exact .kept (by rw [hother hj, if_neg hrun]) hothers fun h => absurd h hrun

/-- Changes of a table, one after the other, with what they mean for the slots. -/
inductive Moves {n : Nat} : EnvTable n → List (Event n) → EnvTable n → Prop where
  | refl (t : EnvTable n) : Moves t [] t
  | tail {t u v : EnvTable n} {past done : List (Event n)} :
      Moves t past u → Move u done v → Moves t (past ++ done) v

namespace Moves

variable {n : Nat} {t u v : EnvTable n} {past done : List (Event n)}

theorem single (h : Move t done u) : Moves t done u := Moves.tail (.refl t) h

theorem trans (h : Moves t past u) (h' : Moves u done v) : Moves t (past ++ done) v := by
  induction h' with
  | refl => rwa [List.append_nil]
  | tail _ hm ih =>
    rw [← List.append_assoc]
    exact ih.tail hm

/-- What every move preserves holds after any moves. -/
theorem preserves {P : EnvTable n → Prop} (h : Moves t past u) (ht : P t)
    (step : ∀ {s s' done}, P s → Move s done s' → P s') : P u := by
  induction h with
  | refl => exact ht
  | tail _ hm ih => exact step ih hm

/-- What every move preserves, together with what has happened, holds after any moves. -/
theorem accumulates {P : List (Event n) → EnvTable n → Prop} (h : Moves t past u) (ht : P [] t)
    (step : ∀ {past s s' done}, P past s → Move s done s' → P (past ++ done) s') : P past u := by
  induction h with
  | refl => exact ht
  | tail _ hm ih => exact step ih hm

end Moves

end EnvKernel.Env
