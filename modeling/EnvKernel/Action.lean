import EnvKernel.Console.Notice
import EnvKernel.Cpu.Control
import EnvKernel.Panic

/-!
Computations of the kernel. An `Action` changes a state, says things on the way, and ends in one of
three ways: with a value, with an error that its caller can handle, or by stopping the kernel. What
it changed before it ended stays changed. The lemmas `bind_of_ok`, `bind_of_error` and
`bind_of_stop` say how actions follow each other, and `bind_keeps` and `bind_eq_ok_iff` what is known
of the state and of the value in the end.
-/

namespace EnvKernel

/-- How a computation ends. -/
inductive Outcome (ε α : Type) where
  | ok (value : α)
  | error (reason : ε)
  | stop (how : Stop)
deriving DecidableEq

/-- What a computation lets the outside see. -/
inductive Output where
  | log (notice : Console.Notice)
  | print (text : String)
  | control (order : Cpu.Control)
deriving DecidableEq, Repr

/-- How a computation ended, the state it left, and what it said, in order. -/
structure Effect (σ ε α : Type) where
  outcome : Outcome ε α
  state : σ
  output : List Output := []

/-- Computations on different states end alike, in related states. -/
structure Effect.Agrees {σ τ ε α : Type} (R : σ → τ → Prop) (e : Effect σ ε α) (e' : Effect τ ε α) :
    Prop where
  outcome_eq : e.outcome = e'.outcome
  related : R e.state e'.state

/-- A computation over a state `σ` with errors in `ε`. -/
def Action (σ ε α : Type) : Type := σ → Effect σ ε α

namespace Action

variable {σ τ ε ε' α β : Type}

/-- Does nothing but give a value. -/
protected def pure (a : α) : Action σ ε α := fun s => { outcome := .ok a, state := s }

/-- Goes on with the value of `x`, if it has one. -/
protected def bind (x : Action σ ε α) (f : α → Action σ ε β) : Action σ ε β := fun s =>
  match x s with
  | ⟨.ok a, s, said⟩ =>
    let next := f a s
    { next with output := said ++ next.output }
  | ⟨.error e, s, said⟩ => ⟨.error e, s, said⟩
  | ⟨.stop h, s, said⟩ => ⟨.stop h, s, said⟩

instance : Monad (Action σ ε) where
  pure := Action.pure
  bind := Action.bind

/-- Ends with an error. -/
def fail (e : ε) : Action σ ε α := fun s => { outcome := .error e, state := s }

/-- Stops the kernel. -/
def halt (h : Stop) : Action σ ε α := fun s => { outcome := .stop h, state := s }

/-- Gives up for the given reason. -/
def panic (p : Panic) : Action σ ε α := halt (.panic p)

/-- Says something. -/
def say (o : Output) : Action σ ε Unit := fun s => { outcome := .ok (), state := s, output := [o] }

/-- Writes a notice to the log. -/
def log (n : Console.Notice) : Action σ ε Unit := say (.log n)

/-- The state. -/
def state : Action σ ε σ := fun s => { outcome := .ok s, state := s }

/-- Replaces the state. -/
def replace (s : σ) : Action σ ε Unit := fun _ => { outcome := .ok (), state := s }

/-- Changes the state. -/
def update (f : σ → σ) : Action σ ε Unit := fun s => { outcome := .ok (), state := f s }

/-- Gives the value of a result or ends with its error. -/
def ofExcept : Except ε α → Action σ ε α
  | .ok a => Action.pure a
  | .error e => fail e

/-- Gives the value of a result or gives up for its reason. -/
def orPanic : Except Panic α → Action σ ε α
  | .ok a => Action.pure a
  | .error p => panic p

/-- A computation without output that ends with a value or an error. -/
def ofResult (f : σ → Except ε α × σ) : Action σ ε α := fun s =>
  match f s with
  | (.ok a, s) => { outcome := .ok a, state := s }
  | (.error e, s) => { outcome := .error e, state := s }

/-- The same computation with its errors seen as others. -/
def mapError (f : ε → ε') (x : Action σ ε α) : Action σ ε' α := fun s =>
  match x s with
  | ⟨.ok a, s, said⟩ => ⟨.ok a, s, said⟩
  | ⟨.error e, s, said⟩ => ⟨.error (f e), s, said⟩
  | ⟨.stop h, s, said⟩ => ⟨.stop h, s, said⟩

/-- The same computation, which gives its error as a value. -/
def attempt (x : Action σ ε α) : Action σ ε' (Except ε α) := fun s =>
  match x s with
  | ⟨.ok a, s, said⟩ => ⟨.ok (.ok a), s, said⟩
  | ⟨.error e, s, said⟩ => ⟨.ok (.error e), s, said⟩
  | ⟨.stop h, s, said⟩ => ⟨.stop h, s, said⟩

/-- The same computation, for which an error is a reason to give up. -/
def orGiveUp (f : ε → Panic) (x : Action σ ε α) : Action σ ε' α := fun s =>
  match x s with
  | ⟨.ok a, s, said⟩ => ⟨.ok a, s, said⟩
  | ⟨.error e, s, said⟩ => ⟨.stop (.panic (f e)), s, said⟩
  | ⟨.stop h, s, said⟩ => ⟨.stop h, s, said⟩

/-- The same computation on a part of a larger state. -/
def onPart (get : τ → σ) (put : σ → τ → τ) (x : Action σ ε α) : Action τ ε α := fun t =>
  match x (get t) with
  | ⟨outcome, s, said⟩ => ⟨outcome, put s t, said⟩

section Equations

variable {x : Action σ ε α} {f : α → Action σ ε β} {s s' : σ} {said : List Output}

@[simp] theorem pure_apply (a : α) (s : σ) :
    (pure a : Action σ ε α) s = { outcome := .ok a, state := s } := rfl

theorem bind_of_ok {a : α} (h : x s = ⟨.ok a, s', said⟩) :
    (x >>= f) s = { f a s' with output := said ++ (f a s').output } := by
  show Action.bind x f s = _
  simp only [Action.bind, h]

theorem bind_of_error {e : ε} (h : x s = ⟨.error e, s', said⟩) :
    (x >>= f) s = ⟨.error e, s', said⟩ := by
  show Action.bind x f s = _
  simp only [Action.bind, h]

theorem bind_of_stop {p : Stop} (h : x s = ⟨.stop p, s', said⟩) :
    (x >>= f) s = ⟨.stop p, s', said⟩ := by
  show Action.bind x f s = _
  simp only [Action.bind, h]

/-- What holds after `x`, and after whatever follows a value of `x`, holds in the end. -/
theorem bind_keeps {P : σ → Prop} (hx : P (x s).state)
    (hf : ∀ a, (x s).outcome = .ok a → P (f a (x s).state).state) : P ((x >>= f) s).state := by
  rcases h : x s with ⟨outcome, s', said⟩
  rw [h] at hx hf
  cases outcome with
  | ok a => rw [bind_of_ok h]; exact hf a rfl
  | error e => rw [bind_of_error h]; exact hx
  | stop p => rw [bind_of_stop h]; exact hx

theorem bind_eq_ok_iff {b : β} : ((x >>= f) s).outcome = .ok b ↔
    ∃ a, (x s).outcome = .ok a ∧ (f a (x s).state).outcome = .ok b := by
  rcases h : x s with ⟨outcome, s', said⟩
  cases outcome with
  | ok a => simp [bind_of_ok h]
  | error e => simp [bind_of_error h]
  | stop p => simp [bind_of_stop h]

/-- What holds after what follows a value of `x` holds in the end, if that ends with a value. -/
theorem bind_keeps_of_ok {P : σ → Prop} {b : β} (h : ((x >>= f) s).outcome = .ok b)
    (hf : ∀ a, (x s).outcome = .ok a → (f a (x s).state).outcome = .ok b → P (f a (x s).state).state) :
    P ((x >>= f) s).state := by
  rcases hx : x s with ⟨outcome, s', said⟩
  rw [hx] at hf
  cases outcome with
  | ok a =>
    rw [bind_of_ok hx] at h ⊢
    exact hf a rfl h
  | error e =>
    rw [bind_of_error hx] at h
    cases h
  | stop p =>
    rw [bind_of_stop hx] at h
    cases h

/-- A computation ends as its first part, or as what follows a value of that. -/
theorem outcome_bind : ((x >>= f) s).outcome = match (x s).outcome with
    | .ok a => (f a (x s).state).outcome
    | .error e => .error e
    | .stop p => .stop p := by
  rcases h : x s with ⟨outcome, s', said⟩
  cases outcome with
  | ok a => rw [bind_of_ok h]
  | error e => rw [bind_of_error h]
  | stop p => rw [bind_of_stop h]

theorem bind_agrees_of_ok {R : σ → τ → Prop} {e : Effect τ ε β} {a : α} (h : (x s).outcome = .ok a)
    (hrest : (f a (x s).state).Agrees R e) : ((x >>= f) s).Agrees R e := by
  rcases hx : x s with ⟨outcome, s', said⟩
  rw [hx] at h hrest
  cases h
  rw [bind_of_ok hx]
  exact ⟨hrest.1, hrest.2⟩

/-- Computations on different states agree if their first parts do, and what follows the same value. -/
theorem bind_agrees {R : σ → τ → Prop} {y : Action τ ε α} {g : α → Action τ ε β} {t : τ}
    (hfirst : (x s).Agrees R (y t))
    (hrest : ∀ a, (x s).outcome = .ok a → (f a (x s).state).Agrees R (g a (y t).state)) :
    ((x >>= f) s).Agrees R ((y >>= g) t) := by
  obtain ⟨houtcome, hrelated⟩ := hfirst
  rcases hx : x s with ⟨outcome, s', said⟩
  rcases hy : y t with ⟨outcome', t', said'⟩
  rw [hx] at houtcome hrelated hrest
  rw [hy] at houtcome hrelated hrest
  cases houtcome
  cases outcome with
  | ok a =>
    rw [bind_of_ok hx, bind_of_ok hy]
    exact ⟨(hrest a rfl).1, (hrest a rfl).2⟩
  | error e =>
    rw [bind_of_error hx, bind_of_error hy]
    exact ⟨rfl, hrelated⟩
  | stop p =>
    rw [bind_of_stop hx, bind_of_stop hy]
    exact ⟨rfl, hrelated⟩

theorem bind_eq_error_iff {e : ε} : ((x >>= f) s).outcome = .error e ↔ (x s).outcome = .error e ∨
    ∃ a, (x s).outcome = .ok a ∧ (f a (x s).state).outcome = .error e := by
  rw [outcome_bind]
  cases (x s).outcome <;> simp

@[simp] theorem bind_state_apply (f : σ → Action σ ε β) (s : σ) : (state >>= f) s = f s s := rfl

@[simp] theorem bind_ofExcept_apply (a : α) (f : α → Action σ ε β) (s : σ) :
    (ofExcept (.ok a) >>= f) s = f a s := rfl

theorem attempt_of_ok {a : α} (h : x s = ⟨.ok a, s', said⟩) :
    (attempt x : Action σ ε' (Except ε α)) s = ⟨.ok (.ok a), s', said⟩ := by
  simp only [attempt, h]

theorem attempt_of_error {e : ε} (h : x s = ⟨.error e, s', said⟩) :
    (attempt x : Action σ ε' (Except ε α)) s = ⟨.ok (.error e), s', said⟩ := by
  simp only [attempt, h]

theorem attempt_of_stop {p : Stop} (h : x s = ⟨.stop p, s', said⟩) :
    (attempt x : Action σ ε' (Except ε α)) s = ⟨.stop p, s', said⟩ := by
  simp only [attempt, h]

theorem mapError_of_ok (g : ε → ε') {a : α} (h : x s = ⟨.ok a, s', said⟩) :
    mapError g x s = ⟨.ok a, s', said⟩ := by
  simp only [mapError, h]

theorem mapError_of_error (g : ε → ε') {e : ε} (h : x s = ⟨.error e, s', said⟩) :
    mapError g x s = ⟨.error (g e), s', said⟩ := by
  simp only [mapError, h]

@[simp] theorem state_mapError (g : ε → ε') (x : Action σ ε α) (s : σ) :
    (mapError g x s).state = (x s).state := by
  unfold mapError
  split <;> simp [*]

@[simp] theorem mapError_eq_ok_iff {g : ε → ε'} {a : α} :
    (mapError g x s).outcome = .ok a ↔ (x s).outcome = .ok a := by
  unfold mapError
  split <;> simp [*]

theorem outcome_mapError (g : ε → ε') : (mapError g x s).outcome = match (x s).outcome with
    | .ok a => .ok a
    | .error e => .error (g e)
    | .stop p => .stop p := by
  unfold mapError
  split <;> simp [*]

theorem mapError_agrees {R : σ → τ → Prop} (g : ε → ε') {y : Action τ ε α} {t : τ}
    (h : (x s).Agrees R (y t)) : (mapError g x s).Agrees R (mapError g y t) where
  outcome_eq := by rw [outcome_mapError, outcome_mapError, h.outcome_eq]
  related := by
    rw [state_mapError, state_mapError]
    exact h.related

theorem mapError_eq_error_iff {g : ε → ε'} {e' : ε'} :
    (mapError g x s).outcome = .error e' ↔ ∃ e, (x s).outcome = .error e ∧ g e = e' := by
  rw [outcome_mapError]
  cases (x s).outcome <;> simp

@[simp] theorem state_orGiveUp (g : ε → Panic) (x : Action σ ε α) (s : σ) :
    (orGiveUp g x s : Effect σ ε' α).state = (x s).state := by
  unfold orGiveUp
  split <;> simp [*]

@[simp] theorem orGiveUp_eq_ok_iff {g : ε → Panic} {a : α} :
    (orGiveUp g x s : Effect σ ε' α).outcome = .ok a ↔ (x s).outcome = .ok a := by
  unfold orGiveUp
  split <;> simp [*]

end Equations

/-- Whatever the state, the computation does not make the kernel give up. -/
def NeverPanics (x : Action σ ε α) : Prop := ∀ s p, (x s).outcome ≠ .stop (.panic p)

theorem neverPanics_pure (a : α) : NeverPanics (pure a : Action σ ε α) := nofun

theorem neverPanics_update (f : σ → σ) : NeverPanics (update f : Action σ ε Unit) := nofun

/-- A computation never gives up if its first part does not, and no other part that can follow. -/
theorem NeverPanics.bind {x : Action σ ε α} {f : α → Action σ ε β} (hx : NeverPanics x)
    (hf : ∀ s a, (x s).outcome = .ok a → NeverPanics (f a)) : NeverPanics (x >>= f) := by
  intro s p
  have hfirst := hx s p
  have hrest := hf s
  rcases h : x s with ⟨outcome, s', said⟩
  rw [h] at hfirst hrest
  cases outcome with
  | ok a => rw [bind_of_ok h]; exact hrest a rfl s' p
  | error e => rw [bind_of_error h]; nofun
  | stop how => rw [bind_of_stop h]; exact fun heq => hfirst (by cases heq; rfl)

/-- Whatever the state, the computation stops the kernel only as `P` says. -/
def StopsOnly (P : Stop → Prop) (x : Action σ ε α) : Prop :=
  ∀ s how, (x s).outcome = .stop how → P how

section StopsOnly

variable {P : Stop → Prop}

theorem stopsOnly_pure (a : α) : StopsOnly P (pure a : Action σ ε α) := nofun

theorem stopsOnly_fail (e : ε) : StopsOnly P (fail e : Action σ ε α) := nofun

theorem stopsOnly_say (o : Output) : StopsOnly P (say o : Action σ ε Unit) := nofun

/-- A computation stops the kernel only where one of its parts does. -/
theorem StopsOnly.bind {x : Action σ ε α} {f : α → Action σ ε β} (hx : StopsOnly P x)
    (hf : ∀ a, StopsOnly P (f a)) : StopsOnly P (x >>= f) := by
  intro s how h
  rw [outcome_bind] at h
  split at h
  · exact hf _ _ _ h
  · cases h
  · rename_i p hp
    cases h
    exact hx s how hp

theorem StopsOnly.mapError {x : Action σ ε α} (hx : StopsOnly P x) (g : ε → ε') :
    StopsOnly P (mapError g x) := by
  intro s how h
  rw [outcome_mapError] at h
  split at h
  · cases h
  · cases h
  · rename_i p hp
    cases h
    exact hx s how hp

end StopsOnly

end Action

end EnvKernel
