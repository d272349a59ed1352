/-!
Hexadecimal text: numbers as lower-case digits, either as few as possible behind `0x` or padded to
eight, and bytes as two digits each.
-/

namespace EnvKernel.Text

/-- The hexadecimal digits of a number, lower-case, without leading zeros. -/
def hexDigits (n : Nat) : String := String.ofList (Nat.toDigits 16 n)

/-- A number as `0x` and its digits. -/
def hex (n : Nat) : String := "0x" ++ hexDigits n

/-- A number as at least eight hexadecimal digits. -/
def hex8 (n : Nat) : String :=
  let digits := Nat.toDigits 16 n
  String.ofList (List.replicate (8 - digits.length) '0' ++ digits)

example : hex 0 = "0x0" ∧ hex 0xfff0 = "0xfff0" ∧ hex8 0x1001 = "00001001" := by decide +kernel

/-- The two digits of a byte. -/
def byteDigits (b : UInt8) : List Char := [(b.toNat / 16).digitChar, (b.toNat % 16).digitChar]

/-- Bytes as text, two digits each. -/
def hexBytes (bytes : List UInt8) : String := String.ofList (bytes.flatMap byteDigits)

/-- The number that a digit stands for. -/
def digitValue? (c : Char) : Option Nat :=
  if '0' ≤ c ∧ c ≤ '9' then some (c.toNat - '0'.toNat)
  else if 'a' ≤ c ∧ c ≤ 'f' then some (c.toNat - 'a'.toNat + 10)
  else none

/-- The number that digits spell, behind the number `high` of the digits before them. -/
def unhexDigits? (high : Nat) : List Char → Option Nat
  | [] => some high
  | c :: cs => do unhexDigits? (high * 16 + (← digitValue? c)) cs

/-- The number that a text of `0x` and digits stands for. -/
def unhex? (s : String) : Option Nat :=
  match s.toList with
  | '0' :: 'x' :: c :: cs => unhexDigits? 0 (c :: cs)
  | _ => none

/-- The bytes that digits spell, behind the bytes that were read before. -/
def unhexBytesFrom? (read : Array UInt8) : List Char → Option (Array UInt8)
  | [] => some read
  | [_] => none
  | a :: b :: cs => do
    unhexBytesFrom? (read.push (UInt8.ofNat ((← digitValue? a) * 16 + (← digitValue? b)))) cs

/-- The bytes that a text of two digits each stands for. -/
def unhexBytes? (s : String) : Option (Array UInt8) := unhexBytesFrom? #[] s.toList

example : hexBytes [0x7f, 0x05] = "7f05" ∧ unhexBytes? "7f05" = some #[0x7f, 0x05] := by
  decide +kernel
example : unhex? "0xfff0" = some 0xfff0 ∧ unhex? "0x" = none := by decide +kernel

end EnvKernel.Text
