import EnvKernel.Console.Host

/-!
The command line of the kernel on a host.
-/

/-- Says that a host is not the place to run, and ends well. -/
def main : IO UInt32 := do
  IO.eprintln EnvKernel.Console.hostMessage
  return EnvKernel.Console.hostStatus
