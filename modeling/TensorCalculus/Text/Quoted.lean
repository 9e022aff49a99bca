import TensorCalculus.Text.Printable

/-!
# Quoted text

A text is quoted by apostrophes, or by quotation marks when it holds an apostrophe and no quotation
mark. The quoting mark and the backslash are escaped, and characters without a visible form are
written by name or by number in two, four or eight hexadecimal digits. -/

namespace TensorCalculus.Text

/-- The last `width` hexadecimal digits of a number, in lower case. -/
def hexDigits : Nat → Nat → List Char
  | 0, _ => []
  | width + 1, n => hexDigits width (n / 16) ++ [Nat.digitChar (n % 16)]

@[simp]
theorem length_hexDigits (width n : Nat) : (hexDigits width n).length = width := by
  induction width generalizing n with
  | zero => rfl
  | succ width ih => simp [hexDigits, ih]

/-- How a character stands inside text quoted by `mark`. -/
def escaped (mark : Char) (c : Char) : List Char :=
  if c = mark ∨ c = '\\' then ['\\', c]
  else if c = '\n' then ['\\', 'n']
  else if c = '\r' then ['\\', 'r']
  else if c = '\t' then ['\\', 't']
  else if isPrintable c then [c]
  else if c.toNat < 0x100 then '\\' :: 'x' :: hexDigits 2 c.toNat
  else if c.toNat < 0x10000 then '\\' :: 'u' :: hexDigits 4 c.toNat
  else '\\' :: 'U' :: hexDigits 8 c.toNat

def quotingMark (cs : List Char) : Char :=
  if '\x27' ∈ cs ∧ '\x22' ∉ cs then '\x22' else '\x27'

def quoteList (cs : List Char) : List Char :=
  let mark := quotingMark cs
  mark :: (cs.flatMap (escaped mark) ++ [mark])

def quote (s : String) : String :=
  String.ofList (quoteList s.toList)

def quoteChar (c : Char) : String :=
  String.ofList (quoteList [c])

end TensorCalculus.Text
