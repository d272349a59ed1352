/-!
What the kernel says when it is run on a host instead of a machine of its own.
-/

namespace EnvKernel.Console

/-- The kernel needs a machine to itself. -/
def hostMessage : String := "the kspace kernel only runs on x86_64-unknown-none"

/-- The status with which the host's process ends. -/
def hostStatus : UInt32 := 0

end EnvKernel.Console
