import EnvKernel.Build.Directive
import EnvKernel.Lock.Threads
import EnvKernel.Proofs.Lock.Exclusive
import EnvKernel.Proofs.Memory.Cover
import EnvKernel.Machine.Step
import EnvKernel.Main
import EnvKernel.Proofs.Cpu.Resume
import EnvKernel.Proofs.Scheduler.Loop
import EnvKernel.Proofs.Table.FreeList
import EnvKernel.Proofs.Table.Generation
import EnvKernel.Proofs.Table.Isolation
import EnvKernel.Proofs.Table.Returns
import EnvKernel.Proofs.Bytes
import EnvKernel.Proofs.Bytes.View
import EnvKernel.Proofs.Memory.Sparse
import EnvKernel.Proofs.Memory.Access
import EnvKernel.Proofs.Memory.Frame
import EnvKernel.Proofs.Memory.Enumeration
import EnvKernel.Proofs.Memory.Twin
import EnvKernel.Proofs.Program.Placement
import EnvKernel.Proofs.Program.Load
import EnvKernel.Proofs.Program.Bind
import EnvKernel.Proofs.Table.Furnish
import EnvKernel.Proofs.Table.Shared
import EnvKernel.Proofs.Table.Stacks
import EnvKernel.Proofs.Table.Family
import EnvKernel.Proofs.Table.Supplied
import EnvKernel.Proofs.Program.Unbindable
import EnvKernel.Proofs.Table.Hindrance
import EnvKernel.Proofs.Table.Verdict
import EnvKernel.Proofs.Table.Rotation
import EnvKernel.Proofs.Table.Switch
import EnvKernel.Proofs.Elf.Header
import EnvKernel.Proofs.Elf.Record
import EnvKernel.Proofs.Interrupt.Location
