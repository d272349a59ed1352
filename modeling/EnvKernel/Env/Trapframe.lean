/-!
Saved registers. A trapframe is 24 words in a fixed order; `words` and `ofWords` are the frame as it
lies in memory, and each is the inverse of the other.
-/

namespace EnvKernel.Env

/-- The general purpose registers but the stack pointer, in the order in which they are saved. -/
structure Registers where
  r15 : UInt64 := 0
  r14 : UInt64 := 0
  r13 : UInt64 := 0
  r12 : UInt64 := 0
  r11 : UInt64 := 0
  r10 : UInt64 := 0
  r9 : UInt64 := 0
  r8 : UInt64 := 0
  rsi : UInt64 := 0
  rdi : UInt64 := 0
  rbp : UInt64 := 0
  rdx : UInt64 := 0
  rcx : UInt64 := 0
  rbx : UInt64 := 0
  rax : UInt64 := 0
deriving DecidableEq, Repr

/-- The saved registers of an environment. -/
structure Trapframe where
  regs : Registers := {}
  es : UInt64 := 0
  ds : UInt64 := 0
  trapno : UInt64 := 0
  err : UInt64 := 0
  rip : UInt64 := 0
  cs : UInt64 := 0
  rflags : UInt64 := 0
  rsp : UInt64 := 0
  ss : UInt64 := 0
deriving DecidableEq, Repr

/-- Code and data selectors of a fresh trapframe. -/
structure Selectors where
  code : UInt16
  data : UInt16
deriving DecidableEq, Repr

namespace Trapframe

/-- Bytes of a trapframe in memory. -/
def byteSize : Nat := 192

/-- Where the stack pointer lies in a trapframe. -/
def rspOffset : Nat := 176

/-- The frame of an environment that has not run yet. -/
def initial (selectors : Selectors) (rsp : UInt64) : Trapframe :=
  { es := selectors.data.toUInt64
    ds := selectors.data.toUInt64
    ss := selectors.data.toUInt64
    cs := selectors.code.toUInt64
    rsp }

/-- The words of the frame, in memory order. -/
def words (tf : Trapframe) : Vector UInt64 24 :=
  #v[tf.regs.r15, tf.regs.r14, tf.regs.r13, tf.regs.r12, tf.regs.r11, tf.regs.r10, tf.regs.r9,
    tf.regs.r8, tf.regs.rsi, tf.regs.rdi, tf.regs.rbp, tf.regs.rdx, tf.regs.rcx, tf.regs.rbx,
    tf.regs.rax, tf.es, tf.ds, tf.trapno, tf.err, tf.rip, tf.cs, tf.rflags, tf.rsp, tf.ss]

/-- The frame whose words these are. -/
def ofWords (w : Vector UInt64 24) : Trapframe where
  regs := {
    r15 := w[0], r14 := w[1], r13 := w[2], r12 := w[3], r11 := w[4], r10 := w[5], r9 := w[6]
    r8 := w[7], rsi := w[8], rdi := w[9], rbp := w[10], rdx := w[11], rcx := w[12], rbx := w[13]
    rax := w[14] }
  es := w[15]
  ds := w[16]
  trapno := w[17]
  err := w[18]
  rip := w[19]
  cs := w[20]
  rflags := w[21]
  rsp := w[22]
  ss := w[23]

/-- The names of the words, in memory order. -/
def wordNames : List String :=
  ["r15", "r14", "r13", "r12", "r11", "r10", "r9", "r8", "rsi", "rdi", "rbp", "rdx", "rcx", "rbx",
    "rax", "es", "ds", "trapno", "err", "rip", "cs", "rflags", "rsp", "ss"]

@[simp] theorem ofWords_words (tf : Trapframe) : ofWords tf.words = tf := rfl

end Trapframe

end EnvKernel.Env
