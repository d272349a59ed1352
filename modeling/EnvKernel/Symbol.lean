/-!
Functions of the kernel, by name and by address. By name the first symbol counts; by address it is
the nearest one at or below, and the last of those that share an address. Symbols at address zero
stand for functions that are not there.
-/

namespace EnvKernel

/-- A kernel function that every loaded program is offered. -/
structure Export where
  name : String
  addr : UInt64
deriving DecidableEq, Repr

/-- A kernel function and where its source is. -/
structure KernelSymbol where
  name : String
  addr : UInt64
  file : String
  line : Nat
deriving DecidableEq, Repr

/-- The symbols that are known. -/
structure SymbolTable where
  symbols : List KernelSymbol := []
deriving DecidableEq, Repr

namespace SymbolTable

/-- The address of the function with the given name. -/
def findFunction (t : SymbolTable) (name : String) : Option UInt64 :=
  ((t.symbols.find? (·.name == name)).map (·.addr)).filter (· != 0)

/-- The better one of two symbols for an address: the later one unless it lies lower. -/
def nearer (best : Option KernelSymbol) (s : KernelSymbol) : Option KernelSymbol :=
  match best with
  | none => some s
  | some b => if s.addr < b.addr then some b else some s

/-- The function that an address lies in: the nearest symbol at or below it. -/
def resolveAddress (t : SymbolTable) (addr : UInt64) : Option KernelSymbol :=
  (t.symbols.filter fun s => s.addr != 0 && decide (s.addr ≤ addr)).foldl nearer none

end SymbolTable

/-- Where the address of a function comes from. -/
inductive Resolution where
  | exported (addr : UInt64)
  | debug (addr : UInt64)
  | unresolved
deriving DecidableEq, Repr

/-- The address of a function, zero if it is not known. -/
def Resolution.addr : Resolution → UInt64
  | exported addr => addr
  | debug addr => addr
  | unresolved => 0

/-- Something that knows functions of the kernel. On its own it knows none. -/
structure Resolver where
  findFunction : String → Option UInt64 := fun _ => none
  resolveAddress : UInt64 → Option KernelSymbol := fun _ => none

instance : Coe SymbolTable Resolver where
  coe t := { findFunction := t.findFunction, resolveAddress := t.resolveAddress }

/-- What names are looked up in: the functions on offer, then all that a resolver knows. -/
structure Binder where
  exports : List Export := []
  symbols : Resolver := {}

/-- The function with the given name. One on offer counts even at address zero. -/
def Binder.resolve (b : Binder) (name : String) : Resolution :=
  match b.exports.find? (·.name == name) with
  | some e => .exported e.addr
  | none =>
    match b.symbols.findFunction name with
    | some addr => if addr = 0 then .unresolved else .debug addr
    | none => .unresolved

end EnvKernel
