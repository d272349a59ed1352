import EnvKernel.Symbol

/-!
The functions of the kernel that environments can call and that faults are attributed to. They lie at
the upper end of memory, above everything that a program is loaded to.
-/

namespace EnvKernel.Scheduler

/-- A function of the kernel. -/
inductive Function where
  /-- Prints a string. -/
  | print
  /-- Tells the handle of the caller. -/
  | getEnvId
  /-- Saves the caller's registers and calls `switch`. -/
  | yield
  /-- Destroys the caller. -/
  | exit
  /-- Keeps the saved registers and runs the next environment. -/
  | switch
deriving DecidableEq, Repr

namespace Function

/-- All functions, by ascending address. -/
def all : List Function := [print, getEnvId, yield, exit, switch]

/-- The name that programs use. -/
def name : Function → String
  | print => "cputs"
  | getEnvId => "sys_getenvid"
  | yield => "sys_yield"
  | exit => "sys_exit"
  | switch => "csys_yield"

/-- The address of the function. -/
def addr (f : Function) : UInt64 :=
  0xffffffff80000000 + 0x100000 * UInt64.ofNat (all.idxOf f)

/-- The function that programs call by the given name. -/
def ofName? (name : String) : Option Function := all.find? (·.name == name)

/-- The symbol of the function. The functions are declared on lines of their own, one after the
other. -/
def symbol (f : Function) : KernelSymbol :=
  { name := f.name, addr := f.addr, file := "Scheduler/Function", line := all.idxOf f + 1 }

/-- The function at an address. -/
def ofAddr? (addr : UInt64) : Option Function := all.find? (·.addr == addr)

end Function

/-- The functions of the kernel, by name and by address. -/
def kernelSymbols : SymbolTable := { symbols := Function.all.map Function.symbol }

/-- What every program is offered, and the symbols behind it. -/
def binder : Binder where
  exports := [Function.yield, Function.exit].map fun f => { name := f.name, addr := f.addr }
  symbols := kernelSymbols

end EnvKernel.Scheduler
