import EnvKernel.Text.Hex

/-!
Processor exceptions that the kernel handles: their vectors, the frame that the processor pushes, and
how frame and error codes are written.
-/

namespace EnvKernel.Interrupt

/-- The exceptions with a handler. -/
inductive Exception where
  | divideError
  | breakpoint
  | invalidOpcode
  | doubleFault
  | segmentNotPresent
  | stackSegmentFault
  | generalProtectionFault
  | pageFault
deriving DecidableEq, Repr

namespace Exception

/-- All exceptions with a handler, by ascending vector. -/
def all : List Exception :=
  [divideError, breakpoint, invalidOpcode, doubleFault, segmentNotPresent, stackSegmentFault,
    generalProtectionFault, pageFault]

/-- The place of the exception in the table of handlers. -/
def vector : Exception → Nat
  | divideError => 0
  | breakpoint => 3
  | invalidOpcode => 6
  | doubleFault => 8
  | segmentNotPresent => 11
  | stackSegmentFault => 12
  | generalProtectionFault => 13
  | pageFault => 14

/-- The exception with the given vector. -/
def ofVector? (vector : Nat) : Option Exception := all.find? (·.vector == vector)

/-- What a report calls the exception. -/
def title : Exception → String
  | divideError => "DIVIDE ERROR"
  | breakpoint => "BREAKPOINT"
  | invalidOpcode => "INVALID OPCODE"
  | doubleFault => "DOUBLE FAULT"
  | segmentNotPresent => "SEGMENT NOT PRESENT"
  | stackSegmentFault => "STACK SEGMENT FAULT"
  | generalProtectionFault => "GENERAL PROTECTION FAULT"
  | pageFault => "PAGE FAULT"

end Exception

/-- What the processor saves when it raises an exception. -/
structure Frame where
  rip : UInt64
  cs : UInt64
  rflags : UInt64
  rsp : UInt64
  ss : UInt64
deriving DecidableEq, Repr

/-- An address as text. -/
def addressText (addr : UInt64) : String := "VirtAddr(" ++ Text.hex addr.toNat ++ ")"

/-- The frame over several lines: addresses and flags in hexadecimal, segments in decimal. -/
def Frame.text (f : Frame) : String :=
  "InterruptStackFrame \x7b\n    instruction_pointer: VirtAddr(\n        " ++ Text.hex f.rip.toNat ++
    ",\n    ),\n    code_segment: " ++ toString f.cs.toNat ++ ",\n    cpu_flags: " ++
    Text.hex f.rflags.toNat ++ ",\n    stack_pointer: VirtAddr(\n        " ++ Text.hex f.rsp.toNat ++
    ",\n    ),\n    stack_segment: " ++ toString f.ss.toNat ++ ",\n\x7d"

/-- The bits of a page fault's error code that have a name. -/
def faultBits : List (Nat × String) :=
  [(0, "PROTECTION_VIOLATION"), (1, "CAUSED_BY_WRITE"), (2, "USER_MODE"), (3, "MALFORMED_TABLE"),
    (4, "INSTRUCTION_FETCH"), (5, "PROTECTION_KEY"), (6, "SHADOW_STACK"), (15, "SGX"), (31, "RMP")]

/-- A page fault's error code as text: the names of its bits, and what is left of it as a number.
A code without bits is the number zero. -/
def faultCodeText (code : UInt64) : String :=
  let named := faultBits.filter fun (bit, _) => code.toNat.testBit bit
  let rest := named.foldl (fun rest (bit, _) => rest - (1 <<< bit)) code.toNat
  let parts := named.map (·.2) ++ (if rest = 0 ∧ named ≠ [] then [] else [Text.hex rest])
  "PageFaultErrorCode(" ++ String.intercalate " | " parts ++ ")"

example : faultCodeText 0 = "PageFaultErrorCode(0x0)" := by decide +kernel
example : faultCodeText 3 = "PageFaultErrorCode(PROTECTION_VIOLATION | CAUSED_BY_WRITE)" := by
  decide +kernel

end EnvKernel.Interrupt
