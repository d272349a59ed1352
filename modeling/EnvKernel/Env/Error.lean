import EnvKernel.Elf.Error
import EnvKernel.Env.Id
import EnvKernel.Memory.Page

/-!
What can go wrong with environments: finding a slot or an environment, running one, and loading and
binding the executable of a new one.
-/

namespace EnvKernel.Env

open Elf (ElfError)
open Memory (MemoryError)

/-- The state of a slot. -/
inductive Status where
  | free
  /-- To be destroyed while it still runs. -/
  | dying
  | runnable
  | running
  /-- Blocked. -/
  | notRunnable
deriving DecidableEq, Repr

/-- The name of a state. -/
def Status.text : Status → String
  | free => "FREE"
  | dying => "DYING"
  | runnable => "RUNNABLE"
  | running => "RUNNING"
  | notRunnable => "NOT_RUNNABLE"

/-- All states. -/
def Status.all : List Status := [free, dying, runnable, running, notRunnable]

/-- The state with the given name. -/
def Status.ofText? (text : String) : Option Status := all.find? (·.text == text)

/-- Why an executable is not loaded. -/
inductive LoadError where
  | malformed (reason : ElfError)
  | memory (reason : MemoryError)
deriving DecidableEq, Repr

/-- The text of the error. -/
def LoadError.message : LoadError → String
  | malformed reason => "malformed executable: " ++ reason.message
  | memory reason => reason.message

/-- The name of the kind of error, with that of its reason behind a slash. -/
def LoadError.name : LoadError → String
  | malformed reason => "Malformed/" ++ reason.name
  | memory reason => "Memory/" ++ reason.name

/-- Why the pointers of an executable are not bound. -/
inductive BindError where
  | noSectionNames
  | noUninitializedDataSection
  | noSymbolStringTable
  | malformed (reason : ElfError)
  | memory (reason : MemoryError)
deriving DecidableEq, Repr

/-- The text of the error. -/
def BindError.message : BindError → String
  | noSectionNames => "image has no section name table"
  | noUninitializedDataSection => "image has no .bss section"
  | noSymbolStringTable => "image has no .strtab section"
  | malformed reason => "malformed executable: " ++ reason.message
  | memory reason => reason.message

/-- The name of the kind of error, with that of its reason behind a slash. -/
def BindError.name : BindError → String
  | noSectionNames => "NoSectionNames"
  | noUninitializedDataSection => "NoUninitializedDataSection"
  | noSymbolStringTable => "NoSymbolStringTable"
  | malformed reason => "Malformed/" ++ reason.name
  | memory reason => "Memory/" ++ reason.name

/-- Why an operation on environments fails. -/
inductive EnvError where
  | noFreeSlots
  | badHandle (id : EnvId)
  | notRunnable (id : EnvId) (status : Status)
  | load (reason : LoadError)
  | bind (reason : BindError)
deriving DecidableEq, Repr

/-- The text of the error. -/
def EnvError.message : EnvError → String
  | noFreeSlots => "no free environment slots"
  | badHandle id => "bad environment handle " ++ id.text
  | notRunnable id status =>
    "environment " ++ id.text ++ " is " ++ status.text ++ ", not runnable"
  | load reason => "failed to load executable: " ++ reason.message
  | bind reason => "failed to bind symbols: " ++ reason.message

/-- The name of the kind of error, with that of its reason behind a slash. -/
def EnvError.name : EnvError → String
  | noFreeSlots => "NoFreeSlots"
  | badHandle _ => "BadHandle"
  | notRunnable _ _ => "NotRunnable"
  | load reason => "Load/" ++ reason.name
  | bind reason => "Bind/" ++ reason.name

end EnvKernel.Env
