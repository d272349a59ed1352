/-!
A lock that is waited for in a loop, and the value that it protects. Each function is one step that
nothing can come between: an attempt to take the lock either finds it free and takes it, or finds it
held and changes nothing.
-/

namespace EnvKernel

/-- A lock and the value behind it. -/
structure Spinlock (α : Type) where
  locked : Bool := false
  value : α
deriving DecidableEq, Repr

namespace Spinlock

variable {α : Type}

/-- A free lock around a value. -/
def new (value : α) : Spinlock α := { value }

/-- One attempt to take the lock, and whether it was taken. -/
def tryLock (l : Spinlock α) : Bool × Spinlock α :=
  if l.locked then (false, l) else (true, { l with locked := true })

/-- Gives the lock back. -/
def unlock (l : Spinlock α) : Spinlock α := { l with locked := false }

/-- Tells whether the lock is held: tries to take it, and gives it back if that succeeds. -/
def isLocked (l : Spinlock α) : Bool × Spinlock α :=
  match l.tryLock with
  | (true, taken) => (false, taken.unlock)
  | (false, l) => (true, l)

/-- Changes the value. Whoever does so has to hold the lock. -/
def update (f : α → α) (l : Spinlock α) : Spinlock α := { l with value := f l.value }

/-- The lock as text for a programmer. The value can be shown only while the lock is free. -/
def debugText (render : α → String) (l : Spinlock α) : String :=
  let data := if l.locked then "<locked>" else render l.value
  "Spinlock \x7b mutex: Mutex \x7b data: " ++ data ++ " \x7d \x7d"

theorem tryLock_of_free {l : Spinlock α} (h : l.locked = false) :
    l.tryLock = (true, { l with locked := true }) := by
  rw [tryLock, h]
  rfl

theorem tryLock_of_held {l : Spinlock α} (h : l.locked = true) : l.tryLock = (false, l) := if_pos h

/-- The answer is what the lock is, and asking leaves it so. -/
theorem isLocked_eq (l : Spinlock α) : l.isLocked = (l.locked, l) := by
  obtain ⟨locked, value⟩ := l
  cases locked with
  | true => rfl
  | false => rfl

end Spinlock

end EnvKernel
