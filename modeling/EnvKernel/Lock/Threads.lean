import EnvKernel.Lock.Spin

/-!
Threads that share a lock. A thread that took the lock has a guard, through which it reaches the
value, and which it gives back or forgets. A run is any sequence of steps of any threads; a step that
its thread is not entitled to changes nothing. That there is never more than one guard is nothing that
a step looks at.
-/

namespace EnvKernel.Lock

/-- A lock and the guards that exist, each as the thread that has it. -/
structure Shared (α : Type) where
  lock : Spinlock α
  guards : List Nat := []
deriving DecidableEq, Repr

/-- What a thread does at once. -/
inductive Step (α : Type) where
  /-- One attempt to take the lock; waiting for it means to repeat this until it succeeds. -/
  | tryLock (thread : Nat)
  /-- Changes the value through the guard. -/
  | access (thread : Nat) (f : α → α)
  | unlock (thread : Nat)
  /-- Forgets the guard, so that the lock stays held. -/
  | leak (thread : Nat)
  /-- Opens the lock although nobody has a guard. -/
  | forceUnlock

namespace Shared

variable {α : Type}

/-- A free lock that no thread has touched. -/
def new (value : α) : Shared α := { lock := .new value }

/-- Carries a step out and tells whether the thread could take it. -/
def step (s : Shared α) : Step α → Bool × Shared α
  | .tryLock thread =>
    match s.lock.tryLock with
    | (true, lock) => (true, { lock, guards := thread :: s.guards })
    | (false, lock) => (false, { s with lock })
  | .access thread f =>
    if thread ∈ s.guards then (true, { s with lock := s.lock.update f }) else (false, s)
  | .unlock thread =>
    if thread ∈ s.guards then (true, { lock := s.lock.unlock, guards := s.guards.erase thread })
    else (false, s)
  | .leak thread =>
    if thread ∈ s.guards then (true, { s with guards := s.guards.erase thread }) else (false, s)
  | .forceUnlock =>
    if s.guards = [] then (true, { s with lock := s.lock.unlock }) else (false, s)

/-- Carries steps out in order. -/
def run (s : Shared α) (steps : List (Step α)) : Shared α := steps.foldl (fun s x => (s.step x).2) s

/-- Two threads meet at a free lock: the first takes it, the second tries in vain, the first changes the
value and lets go, and the second gets its turn. -/
def contention (f g : α → α) : List (Step α) :=
  [.tryLock 0, .tryLock 1, .access 0 f, .unlock 0, .tryLock 1, .access 1 g, .unlock 1]

end Shared

end EnvKernel.Lock
