import EnvKernel.Lock.Threads
import Mathlib.Data.List.Induction
import Mathlib.Tactic.Common

/-!
Threads that share a lock come one after the other. The main statement is `exclusive_run`: whatever the
threads try, in whatever order, there is never more than one guard, the lock is held exactly as long as
there is one or one was forgotten, and the value is what all critical sections make of it when each is
carried out as a whole, in the order in which the lock was taken. The sections are read off the steps
alone: `record` gives each change to the section of the thread that made it, wherever the steps of other
threads came between.
-/

namespace EnvKernel.Lock

variable {α : Type}

/-! ### What was done -/

/-- A critical section: the thread that took the lock, and the changes that it made through its guard. -/
structure CriticalSection (α : Type) where
  thread : Nat
  changes : List (α → α) := []

/-- The value after the changes of a section. -/
def CriticalSection.apply (value : α) (c : CriticalSection α) : α :=
  c.changes.foldl (fun value f => f value) value

/-- A change belongs to the latest section of its thread; the latest section is the first one of the list. -/
def note (thread : Nat) (f : α → α) : List (CriticalSection α) → List (CriticalSection α)
  | [] => []
  | c :: earlier =>
    if c.thread = thread then { c with changes := c.changes ++ [f] } :: earlier
    else c :: note thread f earlier

/-- The sections, the latest first, after one more step. -/
def record (latest : List (CriticalSection α)) : Step α → List (CriticalSection α)
  | .tryLock thread => { thread } :: latest
  | .access thread f => note thread f latest
  | _ => latest

/-- The critical sections of steps that were carried out, in the order in which the lock was taken. -/
def sections (done : List (Step α)) : List (CriticalSection α) := (done.foldl record []).reverse

/-- The thread that takes the lock. -/
def Step.taker? : Step α → Option Nat
  | .tryLock thread => some thread
  | _ => none

/-- A guard was forgotten, and the lock was not forced open since. -/
def Forgotten (done : List (Step α)) : Prop :=
  ∃ before thread after, done = before ++ Step.leak thread :: after ∧ Step.forceUnlock ∉ after

/-- The steps that were carried out, in order. -/
def Shared.carriedOut (s : Shared α) : List (Step α) → List (Step α)
  | [] => []
  | x :: rest =>
    if (s.step x).1 then x :: (s.step x).2.carriedOut rest else (s.step x).2.carriedOut rest

/-- What holds of a lock around `value` after the steps `done`. -/
structure Exclusive (value : α) (done : List (Step α)) (s : Shared α) : Prop where
  /-- At most one thread has a guard, and no thread has two. -/
  one_guard : s.guards.length ≤ 1
  locked_iff : s.lock.isLocked.1 = true ↔ s.guards ≠ [] ∨ Forgotten done
  /-- To ask whether the lock is held changes nothing. -/
  isLocked_keeps : s.lock.isLocked.2 = s.lock
  tryLock_iff : ∀ thread, (s.step (.tryLock thread)).1 = true ↔ s.lock.isLocked.1 = false
  /-- An attempt in vain changes nothing. -/
  tryLock_vain : ∀ thread, (s.step (.tryLock thread)).1 = false → (s.step (.tryLock thread)).2 = s
  /-- There is a section for each time that the lock was taken, in this order. -/
  takers_eq : (sections done).map (·.thread) = done.filterMap Step.taker?
  /-- No change is lost, and none comes between those of another section. -/
  value_eq : s.lock.value = (sections done).foldl CriticalSection.apply value

theorem foldl_record_concat (done : List (Step α)) (x : Step α) :
    (done ++ [x]).foldl record [] = record (done.foldl record []) x := by
  rw [List.foldl_append, List.foldl_cons, List.foldl_nil]

/-- Changes do not make sections. -/
theorem map_thread_note (thread : Nat) (f : α → α) (latest : List (CriticalSection α)) :
    (note thread f latest).map (·.thread) = latest.map (·.thread) := by
  induction latest with
  | nil => rfl
  | cons c earlier ih =>
    rw [note]
    split
    · rfl
    · rw [List.map_cons, List.map_cons, ih]

theorem map_thread_sections (done : List (Step α)) :
    (sections done).map (·.thread) = done.filterMap Step.taker? := by
  induction done using List.reverseRecOn with
  | nil => rfl
  | append_singleton done x ih =>
    rw [sections, List.map_reverse] at ih
    rw [sections, foldl_record_concat, List.map_reverse, List.filterMap_append, ← ih]
    cases x with
    | tryLock thread => simp [record, Step.taker?]
    | access thread f => simp [record, Step.taker?, map_thread_note]
    | unlock thread => simp [record, Step.taker?]
    | leak thread => simp [record, Step.taker?]
    | forceUnlock => simp [record, Step.taker?]

theorem forgotten_leak (done : List (Step α)) (thread : Nat) : Forgotten (done ++ [.leak thread]) :=
  ⟨done, thread, [], rfl, by simp⟩

/-- A step that is no leak is the last one, so a leak comes before it. -/
theorem forgotten_concat_iff {done : List (Step α)} {x : Step α} (hleak : ∀ thread, x ≠ .leak thread) :
    Forgotten (done ++ [x]) ↔ Forgotten done ∧ x ≠ .forceUnlock := by
  constructor
  · rintro ⟨before, thread, after, heq, hnone⟩
    rcases List.eq_nil_or_concat after with rfl | ⟨after, y, rfl⟩
    · exact absurd (List.append_singleton_inj.1 heq).2 (hleak thread)
    · rw [List.concat_eq_append] at heq hnone
      rw [← List.cons_append, ← List.append_assoc] at heq
      obtain ⟨rfl, rfl⟩ := List.append_singleton_inj.1 heq
      rw [List.mem_append, List.mem_singleton, not_or] at hnone
      exact ⟨⟨before, thread, after, rfl, hnone.1⟩, Ne.symm hnone.2⟩
  · rintro ⟨⟨before, thread, after, rfl, hnone⟩, hforce⟩
    refine ⟨before, thread, after ++ [x], by simp, ?_⟩
    rw [List.mem_append, List.mem_singleton, not_or]
    exact ⟨hnone, Ne.symm hforce⟩

/-! ### One step -/

namespace Shared

variable {s : Shared α} {value : α} {done : List (Step α)}

/-- What the lock, the guards and the steps so far have to do with each other. -/
structure Serial (value : α) (done : List (Step α)) (s : Shared α) : Prop where
  /-- Who has a guard took the lock last. -/
  guarded : s.guards = [] ∨ ∃ c earlier, s.guards = [c.thread] ∧ done.foldl record [] = c :: earlier
  locked_iff : s.lock.locked = true ↔ s.guards ≠ [] ∨ Forgotten done
  /-- A guard that was forgotten keeps all threads from getting another one. -/
  apart : s.guards ≠ [] → ¬ Forgotten done
  value_eq : s.lock.value = (sections done).foldl CriticalSection.apply value

theorem serial_new (value : α) : Serial value [] (new value) where
  guarded := .inl rfl
  locked_iff := by simp [new, Spinlock.new, Forgotten]
  apart := by simp [new]
  value_eq := rfl

theorem step_tryLock_of_free (h : s.lock.locked = false) (thread : Nat) :
    s.step (.tryLock thread) = (true, ⟨{ s.lock with locked := true }, thread :: s.guards⟩) := by
  rw [step, Spinlock.tryLock_of_free h]

theorem step_tryLock_of_held (h : s.lock.locked = true) (thread : Nat) :
    s.step (.tryLock thread) = (false, s) := by
  rw [step, Spinlock.tryLock_of_held h]

theorem tryLock_iff (s : Shared α) (thread : Nat) :
    (s.step (.tryLock thread)).1 = true ↔ s.lock.locked = false := by
  cases h : s.lock.locked with
  | true => simp [step_tryLock_of_held h]
  | false => simp [step_tryLock_of_free h]

/-- A step that is not carried out changes nothing. -/
theorem step_of_refused {x : Step α} (h : (s.step x).1 = false) : (s.step x).2 = s := by
  cases x with
  | tryLock thread =>
    cases hlocked : s.lock.locked with
    | true => rw [step_tryLock_of_held hlocked]
    | false =>
      rw [step_tryLock_of_free hlocked] at h
      cases h
  | access thread f => grind [step]
  | unlock thread => grind [step]
  | leak thread => grind [step]
  | forceUnlock => grind [step]

/-- The one guard that there is. -/
theorem Serial.of_mem (h : Serial value done s) {thread : Nat} (hmem : thread ∈ s.guards) :
    s.guards = [thread] ∧ ¬ Forgotten done ∧
      ∃ c earlier, done.foldl record [] = c :: earlier ∧ c.thread = thread := by
  rcases h.guarded with hnone | ⟨c, earlier, hguards, hlatest⟩
  · rw [hnone] at hmem
    cases hmem
  · rw [hguards, List.mem_singleton] at hmem
    subst hmem
    exact ⟨hguards, h.apart (by simp [hguards]), c, earlier, hlatest, rfl⟩

theorem sections_of_latest {c : CriticalSection α} {earlier : List (CriticalSection α)}
    (h : done.foldl record [] = c :: earlier) : sections done = earlier.reverse ++ [c] := by
  rw [sections, h, List.reverse_cons]

theorem Serial.tryLock (h : Serial value done s) (hfree : s.lock.locked = false) (thread : Nat) :
    Serial value (done ++ [.tryLock thread]) ⟨{ s.lock with locked := true }, thread :: s.guards⟩ := by
  have hopen : ¬ (s.guards ≠ [] ∨ Forgotten done) := by simp [← h.locked_iff, hfree]
  obtain ⟨hguards, hforgotten⟩ := not_or.1 hopen
  have hlatest := foldl_record_concat done (.tryLock thread)
  rw [not_not.1 hguards]
  refine ⟨.inr ⟨{ thread }, _, rfl, hlatest⟩, by simp, fun _ => ?_, ?_⟩
  · simp [forgotten_concat_iff, hforgotten]
  · rw [sections_of_latest hlatest, List.foldl_append]
    exact h.value_eq

theorem Serial.access (h : Serial value done s) {thread : Nat} (hmem : thread ∈ s.guards) (f : α → α) :
    Serial value (done ++ [.access thread f]) { s with lock := s.lock.update f } := by
  obtain ⟨hguards, hforgotten, c, earlier, hold, rfl⟩ := h.of_mem hmem
  have hlatest : (done ++ [Step.access c.thread f]).foldl record [] =
      { c with changes := c.changes ++ [f] } :: earlier := by
    rw [foldl_record_concat, hold]
    exact if_pos rfl
  refine ⟨.inr ⟨{ c with changes := c.changes ++ [f] }, earlier, hguards, hlatest⟩, ?_, fun _ => ?_, ?_⟩
  · simpa [forgotten_concat_iff, Spinlock.update] using h.locked_iff
  · simp [forgotten_concat_iff, hforgotten]
  · have hvalue := h.value_eq
    rw [sections_of_latest hold, List.foldl_append] at hvalue
    rw [sections_of_latest hlatest, List.foldl_append]
    simp only [Spinlock.update, hvalue, List.foldl_cons, List.foldl_nil, CriticalSection.apply,
      List.foldl_append]

theorem Serial.unlock (h : Serial value done s) {thread : Nat} (hmem : thread ∈ s.guards) :
    Serial value (done ++ [.unlock thread]) ⟨s.lock.unlock, s.guards.erase thread⟩ := by
  obtain ⟨hguards, hforgotten, -⟩ := h.of_mem hmem
  rw [hguards, List.erase_cons_head]
  refine ⟨.inl rfl, ?_, fun hne => absurd rfl hne, ?_⟩
  · simp [forgotten_concat_iff, hforgotten, Spinlock.unlock]
  · rw [sections, foldl_record_concat]
    exact h.value_eq

theorem Serial.leak (h : Serial value done s) {thread : Nat} (hmem : thread ∈ s.guards) :
    Serial value (done ++ [.leak thread]) { s with guards := s.guards.erase thread } := by
  obtain ⟨hguards, -⟩ := h.of_mem hmem
  have hlocked : s.lock.locked = true := h.locked_iff.2 (.inl (List.ne_nil_of_mem hmem))
  rw [hguards, List.erase_cons_head]
  refine ⟨.inl rfl, ?_, fun hne => absurd rfl hne, ?_⟩
  · simp [hlocked, forgotten_leak]
  · rw [sections, foldl_record_concat]
    exact h.value_eq

theorem Serial.forceUnlock (h : Serial value done s) (hguards : s.guards = []) :
    Serial value (done ++ [.forceUnlock]) { s with lock := s.lock.unlock } := by
  refine ⟨.inl hguards, ?_, fun hne => absurd hguards hne, ?_⟩
  · simp [forgotten_concat_iff, hguards, Spinlock.unlock]
  · rw [sections, foldl_record_concat]
    exact h.value_eq

/-- A step that is carried out keeps the sections apart. -/
theorem Serial.step (h : Serial value done s) {x : Step α} (hdone : (s.step x).1 = true) :
    Serial value (done ++ [x]) (s.step x).2 := by
  cases x with
  | tryLock thread =>
    have hfree := (tryLock_iff s thread).1 hdone
    rw [step_tryLock_of_free hfree]
    exact h.tryLock hfree thread
  | access thread f =>
    rw [Shared.step] at hdone ⊢
    by_cases hmem : thread ∈ s.guards
    · rw [if_pos hmem]
      exact h.access hmem f
    · rw [if_neg hmem] at hdone
      cases hdone
  | unlock thread =>
    rw [Shared.step] at hdone ⊢
    by_cases hmem : thread ∈ s.guards
    · rw [if_pos hmem]
      exact h.unlock hmem
    · rw [if_neg hmem] at hdone
      cases hdone
  | leak thread =>
    rw [Shared.step] at hdone ⊢
    by_cases hmem : thread ∈ s.guards
    · rw [if_pos hmem]
      exact h.leak hmem
    · rw [if_neg hmem] at hdone
      cases hdone
  | forceUnlock =>
    rw [Shared.step] at hdone ⊢
    by_cases hguards : s.guards = []
    · rw [if_pos hguards]
      exact h.forceUnlock hguards
    · rw [if_neg hguards] at hdone
      cases hdone

/-! ### Runs -/

/-- Steps that are carried out or refused keep the sections apart. -/
theorem Serial.run (h : Serial value done s) (steps : List (Step α)) :
    Serial value (done ++ s.carriedOut steps) (s.run steps) := by
  induction steps generalizing s done with
  | nil => simpa [carriedOut, Shared.run] using h
  | cons x rest ih =>
    rw [carriedOut, Shared.run, List.foldl_cons]
    cases hdone : (s.step x).1 with
    | true =>
      have hrest := ih (h.step hdone)
      rwa [List.append_assoc] at hrest
    | false =>
      have hrest := ih (step_of_refused hdone ▸ h)
      exact hrest

theorem Serial.exclusive (h : Serial value done s) : Exclusive value done s where
  one_guard := by
    rcases h.guarded with hnone | ⟨c, earlier, hguards, -⟩
    · rw [hnone]
      exact Nat.zero_le 1
    · rw [hguards]
      exact Nat.le_refl 1
  locked_iff := by
    rw [Spinlock.isLocked_eq]
    exact h.locked_iff
  isLocked_keeps := by rw [Spinlock.isLocked_eq]
  tryLock_iff thread := by
    rw [Spinlock.isLocked_eq]
    exact tryLock_iff s thread
  tryLock_vain _ := step_of_refused
  takers_eq := map_thread_sections done
  value_eq := h.value_eq

end Shared

/-- Whatever steps threads take at a new lock, their critical sections come one after the other. -/
theorem exclusive_run (value : α) (steps : List (Step α)) :
    Exclusive value ((Shared.new value).carriedOut steps) ((Shared.new value).run steps) :=
  ((Shared.serial_new value).run steps).exclusive

/-- Three threads: one changes the value twice while another one tries, one forgets its guard, and the
third gets the lock after it was forced open. -/
example :
    let steps : List (Step Nat) := [.tryLock 0, .access 0 (· + 1), .tryLock 1, .access 0 (· * 10), .unlock 0,
      .tryLock 1, .access 1 (· + 2), .leak 1, .tryLock 2, .forceUnlock, .tryLock 2, .access 1 (· * 0),
      .access 2 (· + 5)]
    (((Shared.new 4).carriedOut steps).filterMap Step.taker?, (Shared.new 4).run steps) =
      ([0, 1, 2], ⟨⟨true, 57⟩, [2]⟩) := by decide

end EnvKernel.Lock
