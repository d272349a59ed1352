/-!
The serial device behind the console: the writes that set it up, and the bytes that go over the line.
-/

namespace EnvKernel.Console

/-- The first register of the serial device. -/
def serialBase : UInt16 := 0x3f8

/-- A byte written to a register of a device. -/
structure RegisterWrite where
  register : UInt16
  value : UInt8
deriving DecidableEq, Repr

/-- Sets the device up: interrupts off, a rate of 38400 with the latch open, eight data bits, queues
on and cleared, line ready, interrupts on. -/
def serialSetUp : List RegisterWrite :=
  [⟨serialBase + 1, 0x00⟩, ⟨serialBase + 3, 0x80⟩, ⟨serialBase, 0x03⟩, ⟨serialBase + 1, 0x00⟩,
    ⟨serialBase + 3, 0x03⟩, ⟨serialBase + 2, 0xc7⟩, ⟨serialBase + 4, 0x0b⟩, ⟨serialBase + 1, 0x01⟩]

/-- What goes over the line for a byte. Backspace and delete also blank the place they go back to. -/
def sent (b : UInt8) : List UInt8 := if b = 0x08 ∨ b = 0x7f then [0x08, 0x20, 0x08] else [b]

/-- What goes over the line for a text. -/
def sentText (s : String) : List UInt8 := s.toUTF8.toList.flatMap sent

/-- The text that arrives for a text. What is added to it are whole characters. -/
def received (s : String) : String := (String.fromUTF8? ⟨(sentText s).toArray⟩).getD ""

end EnvKernel.Console
