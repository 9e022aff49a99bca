/-!
# White space

Two sets are in use. Trimming a name takes away every white space character; a numeral may be
surrounded by the same characters except the four information separators (28 to 31). -/

namespace TensorCalculus.Text

/-- White space inside a numeral's surroundings. -/
def isNumeralBlank (c : Char) : Bool :=
  let n := c.toNat
  (9 ≤ n && n ≤ 13) || n == 32 || n == 133 || n == 160 || n == 5760 || (8192 ≤ n && n ≤ 8202) ||
    n == 8232 || n == 8233 || n == 8239 || n == 8287 || n == 12288

def isBlank (c : Char) : Bool :=
  isNumeralBlank c || (28 ≤ c.toNat && c.toNat ≤ 31)

/-- Removes the characters of a class from both ends. -/
def trimBy (drop : Char → Bool) (cs : List Char) : List Char :=
  ((cs.dropWhile drop).reverse.dropWhile drop).reverse

def trim (s : String) : String :=
  String.ofList (trimBy isBlank s.toList)

@[simp]
theorem trimBy_nil (drop : Char → Bool) : trimBy drop [] = [] := rfl

end TensorCalculus.Text
