/-!
# Digits of every script

Each script with decimal digits keeps its ten digits side by side, in increasing order, so the code
points of the zeros give the value of every decimal digit. Superscripts, circled digits and their
like are digits without being decimal: they name a value but do not take part in positional
numerals. -/

namespace TensorCalculus.Text

-- Powers of natural numbers are those of `Nat.pow`, whatever other instances are in sight.
attribute [local instance (2000)] instPowNat

/-- The zeros of all scripts with decimal digits. -/
def decimalZeros : List Nat :=
  [ 48, 1632, 1776, 1984, 2406, 2534, 2662, 2790, 2918, 3046, 3174, 3302, 3430, 3558, 3664, 3792,
    3872, 4160, 4240, 6112, 6160, 6470, 6608, 6784, 6800, 6992, 7088, 7232, 7248, 42528, 43216,
    43264, 43472, 43504, 43600, 44016, 65296, 66720, 68912, 69734, 69872, 69942, 70096, 70384,
    70736, 70864, 71248, 71360, 71472, 71904, 72016, 72784, 73040, 73120, 92768, 92864, 93008,
    120782, 120792, 120802, 120812, 120822, 123200, 123632, 125264, 130032 ]

/-- Ranges, ends included, of the digits that are not decimal. -/
def plainDigitRanges : List (Nat × Nat) :=
  [ (178, 179), (185, 185), (4969, 4977), (6618, 6618), (8304, 8304), (8308, 8313), (8320, 8329),
    (9312, 9320), (9332, 9340), (9352, 9360), (9450, 9450), (9461, 9469), (9471, 9471),
    (10102, 10110), (10112, 10120), (10122, 10130), (68160, 68163), (69216, 69224), (69714, 69722),
    (127232, 127242) ]

/-- The value of a decimal digit. -/
def decimalValue? (c : Char) : Option Nat :=
  (decimalZeros.find? fun start => start ≤ c.toNat && c.toNat < start + 10).map (c.toNat - ·)

def isDigit (c : Char) : Bool :=
  (decimalValue? c).isSome ||
    plainDigitRanges.any fun (low, high) => low ≤ c.toNat && c.toNat ≤ high

theorem isDigit_of_decimalValue? {c : Char} {d : Nat} (h : decimalValue? c = some d) :
    isDigit c = true := by
  simp [isDigit, h]

/-- Whole numbers with more digits than this are neither read nor written. -/
def digitLimit : Nat := 4300

/-- Whether a whole number can be written. -/
def isWritable (n : Int) : Bool :=
  n.natAbs < 10 ^ digitLimit

/-- Whether a text has no more digits than a whole number that can be written. -/
def isShort (text : String) : Bool :=
  text.toList.countP Char.isDigit ≤ digitLimit

end TensorCalculus.Text
