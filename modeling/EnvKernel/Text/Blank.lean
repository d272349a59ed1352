/-!
Blank characters: the 25 characters with the property White_Space, and texts without the blanks at
either end.
-/

namespace EnvKernel.Text

/-- The blank characters as ranges of code points, each with its first and last. -/
def blankRanges : List (Nat × Nat) :=
  [(0x9, 0xd), (0x20, 0x20), (0x85, 0x85), (0xa0, 0xa0), (0x1680, 0x1680), (0x2000, 0x200a),
    (0x2028, 0x2029), (0x202f, 0x202f), (0x205f, 0x205f), (0x3000, 0x3000)]

/-- The character is blank. -/
def isBlank (c : Char) : Bool :=
  blankRanges.any fun (first, last) => decide (first ≤ c.toNat ∧ c.toNat ≤ last)

/-- A list without the blanks at its end. -/
def dropBlankEnd (s : List Char) : List Char := (s.reverse.dropWhile isBlank).reverse

/-- A text without the blanks at either end. -/
def trimBlank (s : String) : String := String.ofList (dropBlankEnd (s.toList.dropWhile isBlank))

example : (blankRanges.map fun (first, last) => last - first + 1).sum = 25 := by decide
example : trimBlank " \ta b\n\n" = "a b" := by decide +kernel

end EnvKernel.Text
