import EnvKernel.Env.Basic
import EnvKernel.Memory.Space
import EnvKernel.Program.Placement

/-!
Loading: the placements of an image are carried out one after the other, and the environment then
starts at the entry point of the image. An image that asks for anything impossible is refused before
memory is touched.
-/

namespace EnvKernel.Program

open Elf Env
open Memory (AddressSpace MemoryError)

variable {σ : Type} [AddressSpace σ]

/-- Makes the region of a placement accessible and stores its bytes. -/
def place (p : Placement) : Action σ MemoryError Unit := do
  AddressSpace.map p.region
  if p.contents.isEmpty then return ()
  AddressSpace.write p.region.start p.contents.data

/-- Carries out placements in order. -/
def placeAll : List Placement → Action σ MemoryError Unit
  | [] => return ()
  | p :: ps => do
    place p
    placeAll ps

/-- The image of a file and what it asks for. -/
def examine (binary : Bytes) : Except ElfError (Image × List Placement) := do
  let image ← Image.parse binary
  let placements ← plan image
  return (image, placements)

/-- Loads `binary` for `env`. -/
def load (env : Environment) (binary : Bytes) : Action σ LoadError Environment :=
  match examine binary with
  | .error e => Action.fail (.malformed e)
  | .ok (image, placements) => do
    Action.mapError .memory (placeAll placements)
    return { env with tf := { env.tf with rip := image.entry }, binary := some binary }

end EnvKernel.Program
