import EnvKernel.Action
import EnvKernel.Env.Basic

/-!
The table of environments: a fixed number of slots, a list of the free ones that is linked through
the slots, and the slot that was given the processor last. A fresh table hands out the slots
0, 1, 2, …; a slot that is given back is the next to be handed out. Operations that fail leave the
table as it was.
-/

namespace EnvKernel.Env

/-- A table of `n` slots. -/
structure EnvTable (n : Nat) where
  slots : Vector Environment n
  /-- For a free slot, the free slot after it. -/
  links : Vector (Option (Fin n)) n
  /-- The first free slot. -/
  freeHead : Option (Fin n)
  /-- The slot that was given the processor last, whoever has it now. -/
  current : Option (Fin n)
  config : Config

/-- The environment in a slot. -/
instance {n : Nat} : GetElem (EnvTable n) (Fin n) Environment fun _ _ => True where
  getElem t i _ := t.slots[i]

namespace EnvTable

/-- Powers of two up to the number of slots that handles can tell apart. -/
def IsCapacity (n : Nat) : Prop := n ≠ 0 ∧ n &&& (n - 1) = 0 ∧ n ≤ maxSlots

instance (n : Nat) : Decidable (IsCapacity n) := inferInstanceAs (Decidable (_ ∧ _))

/-- The lowest address of all stacks that share the kernel's memory, if there is room for them. -/
def lowestStack? (n : Nat) (top size : UInt64) : Option UInt64 := do
  let below ← Word.mul? (UInt64.ofNat (n - 1)) size
  let lastTop ← Word.sub? top below
  Word.sub? lastTop size

/-- The stacks of `n` slots have room. -/
def fits (n : Nat) : Stacks → Bool
  | .shared top size => (lowestStack? n top size).isSome
  | .separate _ _ => true

/-- The table whose `n` slots are all free. -/
def new (n : Nat) (config : Config) : Except Panic (EnvTable n) :=
  if h : IsCapacity n then
    if fits n config.layout then
      .ok {
        slots := Vector.replicate n {}
        links := Vector.ofFn fun i => if h : i.val + 1 < n then some ⟨i.val + 1, h⟩ else none
        freeHead := some ⟨0, Nat.pos_of_ne_zero h.1⟩
        current := none
        config }
    else .error (.stackArea config.layout.top n config.layout.size)
  else .error (.tableCapacity n)

variable {n : Nat}

/-- The environment in the given slot, with its fields changed by `f`. -/
def modify (t : EnvTable n) (i : Fin n) (f : Environment → Environment) : EnvTable n :=
  { t with slots := t.slots.set i (f t[i]) }

/-- The slot of the running environment. -/
def running? (t : EnvTable n) : Option (Fin n) :=
  t.current.filter fun i => t[i].status == .running

/-- The running environment. -/
def current? (t : EnvTable n) : Option Environment := t.running?.map fun i => t[i]

/-- The handle of the running environment. The kernel itself has none. -/
def currentId (t : EnvTable n) : EnvId :=
  match t.current? with
  | some env => env.id
  | none => .none

/-- The environments, in the order of their slots. -/
def live (t : EnvTable n) : List Environment := t.slots.toList.filter (·.status != .free)

/-- The free slot after a free slot. -/
def link (t : EnvTable n) (i : Fin n) : Option (Fin n) := t.links[i]

/-- Follows the links for at most `steps` slots. -/
def follow (t : EnvTable n) : Nat → Option (Fin n) → List (Fin n)
  | 0, _ => []
  | _, none => []
  | steps + 1, some i => i :: t.follow steps (t.link i)

/-- The list of free slots, the next to be handed out first. No list is longer than the table. -/
def freeList (t : EnvTable n) : List (Fin n) := t.follow n t.freeHead

/-- The number of slots on the list of free slots. -/
def freeCount (t : EnvTable n) : Nat := t.freeList.length

/-- Top of the stack of a slot. -/
def stackTop (layout : Stacks) (slot : Nat) : Except Panic UInt64 :=
  match layout with
  | .shared top size =>
    match Word.mul? (UInt64.ofNat slot) size with
    | none => .error (.overflow .multiply)
    | some below =>
      match Word.sub? top below with
      | none => .error (.overflow .subtract)
      | some stop => .ok stop
  | .separate top _ => .ok top

/-- The kind that a new environment gets. Those that share the kernel's memory have its rights. -/
def kindFor (config : Config) (kind : Kind) : Kind :=
  match config.layout with
  | .shared _ _ => .kernel
  | .separate _ _ => kind

/-- The selectors that a new environment of the given kind starts with. -/
def selectorsFor (config : Config) : Kind → Selectors
  | .kernel => config.kernel
  | .user => config.user

/-- The environment that slot `i` is handed out to. -/
def newcomer (t : EnvTable n) (i : Fin n) (parent : EnvId) (kind : Kind) (rsp : UInt64) :
    Environment :=
  let kind := kindFor t.config kind
  { id := t[i].id.next i.val, parent, status := .runnable, kind, runs := 0
    tf := .initial (selectorsFor t.config kind) rsp
    binary := none }

/-- Slot `i`, the first free one, handed out to `env`. -/
def take (t : EnvTable n) (i : Fin n) (env : Environment) : EnvTable n :=
  { t with
    freeHead := t.link i
    links := t.links.set i none
    slots := t.slots.set i env }

/-- Takes the first free slot for a new environment and gives its handle. -/
def alloc (parent : EnvId) (kind : Kind) : Action (EnvTable n) EnvError EnvId := fun t =>
  match t.freeHead with
  | none => Action.fail .noFreeSlots t
  | some i =>
    match stackTop t.config.layout i.val with
    | .error p => Action.panic p t
    | .ok rsp =>
      let env := t.newcomer i parent kind rsp
      { outcome := .ok env.id, state := t.take i env }

/-- Takes slots for `count` environments without a parent and gives the handle of the last one. -/
def allocMany (kind : Kind) (last : EnvId) : Nat → Action (EnvTable n) EnvError EnvId
  | 0 => return last
  | count + 1 => do
    let id ← alloc .none kind
    allocMany kind id count

/-- The slot that a handle names. No handle means the caller, and no slot that the caller is the
kernel. With `checkParent` an environment is found only by itself and by its parent. -/
def resolve (t : EnvTable n) (id : EnvId) (checkParent : Bool) : Except EnvError (Option (Fin n)) :=
  if id.isNone then .ok t.running?
  else if h : id.slot < n then
    let env := t[(⟨id.slot, h⟩ : Fin n)]
    if env.status = .free ∨ env.id ≠ id then .error (.badHandle id)
    else if checkParent ∧ env.id ≠ t.currentId ∧ env.parent ≠ t.currentId then
      .error (.badHandle id)
    else .ok (some ⟨id.slot, h⟩)
  else .error (.badHandle id)

/-- The slot that a handle names, where it has to be that of an environment. -/
def resolveEnv (t : EnvTable n) (id : EnvId) : Except EnvError (Fin n) := do
  match ← t.resolve id false with
  | some i => return i
  | none => throw (.badHandle id)

/-- The environment that a handle names, and no environment for the kernel. -/
def get (t : EnvTable n) (id : EnvId) (checkParent : Bool) : Except EnvError (Option Environment) :=
  (t.resolve id checkParent).map fun slot => slot.map fun i => t[i]

/-- Changes the environment that a handle names and gives it. For the kernel nothing happens. -/
def getModify (id : EnvId) (checkParent : Bool) (f : Environment → Environment) :
    Action (EnvTable n) EnvError (Option Environment) := fun t =>
  match t.resolve id checkParent with
  | .error e => Action.fail e t
  | .ok none => { outcome := .ok none, state := t }
  | .ok (some i) => { outcome := .ok (some (f t[i])), state := t.modify i f }

/-- Slot `i` without an environment, in front of the list of free slots. -/
def giveBack (t : EnvTable n) (i : Fin n) : EnvTable n :=
  { t.modify i fun env => { env with status := .free, binary := none } with
    links := t.links.set i t.freeHead
    freeHead := some i }

/-- Gives the slot of an environment back. Every handle to it is stale from then on. -/
def free (id : EnvId) : Action (EnvTable n) EnvError Unit := fun t =>
  match t.resolveEnv id with
  | .error e => Action.fail e t
  | .ok i => { outcome := .ok (), state := t.giveBack i }

/-- The stack of an environment. -/
def stackRegion (id : EnvId) : Action (EnvTable n) EnvError Memory.Range := fun t =>
  match t.resolveEnv id with
  | .error e => Action.fail e t
  | .ok i =>
    match stackTop t.config.layout i.val with
    | .error p => Action.panic p t
    | .ok top =>
      match Word.sub? top t.config.layout.size with
      | none => Action.panic (.overflow .subtract) t
      | some bottom => { outcome := .ok ⟨bottom, top⟩, state := t }

/-- The environment in slot `i` may be given the processor. -/
def mayRun (t : EnvTable n) (i : Fin n) : Bool :=
  match t[i].status with
  | .runnable => true
  | .running => t.current == some i
  | _ => false

/-- The slot that loses the processor when slot `i` gets it. -/
def previous? (t : EnvTable n) (i : Fin n) : Option (Fin n) := t.current.filter (· != i)

/-- The environment in slot `i`, running once more. -/
def start (t : EnvTable n) (i : Fin n) : EnvTable n :=
  { t.modify i fun env => { env with status := .running, runs := env.runs + 1 } with
    current := some i }

/-- Gives an environment the processor and tells with which registers it goes on. The environment that
had it can be run again; one that was destroyed while it ran is passed over. -/
def switchTo (id : EnvId) : Action (EnvTable n) EnvError Trapframe := fun t =>
  match t.resolveEnv id with
  | .error e => Action.fail e t
  | .ok i =>
    if t.mayRun i then
      match t.previous? i with
      | none => { outcome := .ok t[i].tf, state := t.start i }
      | some p =>
        match t[p].status with
        | .dying => Action.panic .destroyingRunning t
        | .running =>
          let t := t.modify p fun env => { env with status := .runnable }
          { outcome := .ok t[i].tf, state := t.start i }
        | _ => { outcome := .ok t[i].tf, state := t.start i }
    else Action.fail (.notRunnable t[i].id t[i].status) t

/-- Keeps the registers that the running environment was interrupted with. -/
def saveCurrent (tf : Trapframe) : Action (EnvTable n) EnvError Unit := fun t =>
  match t.resolveEnv .none with
  | .error e => Action.fail e t
  | .ok i => { outcome := .ok (), state := t.modify i fun env => { env with tf } }

/-- The slots in the order in which they are looked at for the next environment: those behind the
current one, then from the first on. -/
def scanOrder (t : EnvTable n) : List (Fin n) :=
  let start := match t.current with
    | none => 0
    | some i => i.val + 1
  (List.finRange n).drop start ++ (List.finRange n).take start

/-- The environment to run next: the first in scan order that can be run, and if there is none, the one
that is running. -/
def nextRunnable (t : EnvTable n) : Option EnvId :=
  match t.scanOrder.find? fun i => t[i].status == .runnable with
  | some i => some t[i].id
  | none => t.current?.map (·.id)

end EnvTable

end EnvKernel.Env
