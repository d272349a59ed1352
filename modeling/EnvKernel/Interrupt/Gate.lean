import EnvKernel.Cpu.Control
import EnvKernel.Interrupt.Exception

/-!
Gates: the entries of the processor's table of handlers. Every exception with a handler has one; the
handler of a double fault gets a stack of its own, since the stack may be what is broken.
-/

namespace EnvKernel.Interrupt

/-- Number of vectors of the table. -/
def vectorCount : Nat := 256

/-- Bytes of a gate. -/
def gateSize : Nat := 16

/-- The handler of an exception runs on a stack of its own. -/
def Exception.ownStack : Exception → Bool
  | .doubleFault => true
  | _ => false

/-- The options of a gate: present, interrupts off while the handler runs, and the stack to use,
counted from one. -/
def Exception.gateOptions (e : Exception) : UInt16 := if e.ownStack then 0x8e01 else 0x8e00

/-- Turns interrupts off and loads the table of handlers. Interrupts stay off: environments only give
the processor up by asking for it. -/
def loadHandlers : List Cpu.Control :=
  [.disableInterrupts,
    .loadHandlers (UInt16.ofNat (vectorCount * gateSize - 1))
      (Exception.all.map fun e => (e.vector, e.gateOptions))]

end EnvKernel.Interrupt
