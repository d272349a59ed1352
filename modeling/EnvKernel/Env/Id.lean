import EnvKernel.Text.Hex

/-!
Handles of environments. The low twelve bits of a handle are a slot of the table; the bits above
count the occupants of that slot, so that a handle to an earlier occupant is told apart from the
handle of the present one. Handles in use are positive.
-/

namespace EnvKernel.Env

/-- Bits of a handle below the generation. -/
def generationShift : Nat := 12

/-- The largest number of slots that a handle can tell apart. -/
def maxSlots : Nat := 4096

/-- A handle. -/
structure EnvId where
  raw : Int32
deriving DecidableEq, Repr

namespace EnvId

/-- No environment, or the caller where one is looked up. -/
def none : EnvId := ⟨0⟩

/-- The handle is that of no environment. -/
def isNone (id : EnvId) : Bool := id.raw == 0

/-- The slot that the handle names. -/
def slot (id : EnvId) : Nat := id.raw.toUInt32.toNat % maxSlots

/-- How many occupants the slot has had, the present one included. -/
def generation (id : EnvId) : Int32 := id.raw >>> 12

/-- The handle of the next occupant of `slot`. Generations are positive and start again at one. -/
def next (id : EnvId) (slot : Nat) : EnvId :=
  let bits := (id.raw + 4096) &&& ~~~4095
  let bits := if bits ≤ 0 then 4096 else bits
  ⟨bits ||| Int32.ofNat slot⟩

/-- The handle as text: eight hexadecimal digits. -/
def text (id : EnvId) : String := Text.hex8 id.raw.toUInt32.toNat

/-- The handle as text for a programmer. -/
def debugText (id : EnvId) : String := "EnvId(" ++ id.text ++ ")"

example : (none.next 3).slot = 3 ∧ (none.next 3).generation = 1 := by decide
example : ((⟨0x7ffff005⟩ : EnvId).next 5).raw = 0x1005 := by decide

end EnvId

end EnvKernel.Env
