import Mathlib
import TensorCalculus.Literal.Basic

/-!
# Numerals of digits

A text that consists of digits alone has no sign, no blanks around it and no underscores, so reading
it as a whole number comes down to its digits: every one must be decimal, and there must not be too
many of them. The decimal digits that a number is written with are read back as that number. -/

namespace TensorCalculus

namespace Text

variable {c : Char} {cs : List Char}

theorem not_isNumeralBlank_of_isDigit (digit : isDigit c = true) : isNumeralBlank c = false := by
  have blanks : ∀ n ∈ [9, 10, 11, 12, 13, 32, 133, 160, 5760, 8192, 8193, 8194, 8195, 8196, 8197,
      8198, 8199, 8200, 8201, 8202, 8232, 8233, 8239, 8287, 12288],
      isDigit (Char.ofNat n) = false := by decide +kernel
  by_contra blank
  rw [Bool.not_eq_false] at blank
  have code : c.toNat ∈ [9, 10, 11, 12, 13, 32, 133, 160, 5760, 8192, 8193, 8194, 8195, 8196, 8197,
      8198, 8199, 8200, 8201, 8202, 8232, 8233, 8239, 8287, 12288] := by
    simp [isNumeralBlank] at blank ⊢
    omega
  have plain := blanks _ code
  rw [Char.ofNat_toNat, digit] at plain
  cases plain

theorem toNat_of_isDigit (plain : c.isDigit = true) : 48 ≤ c.toNat ∧ c.toNat < 48 + 10 := by
  simp only [Char.isDigit, UInt32.le_iff_toNat_le, Bool.and_eq_true, decide_eq_true_eq] at plain
  exact ⟨plain.1, Nat.lt_succ_of_le plain.2⟩

/-- The digits of the plain script have their usual values. -/
theorem decimalValue?_of_isDigit (plain : c.isDigit = true) :
    decimalValue? c = some (c.toNat - '0'.toNat) := by
  rw [decimalValue?, decimalZeros, List.find?_cons_of_pos (by simpa using toNat_of_isDigit plain)]
  rfl

/-- They have no case. -/
theorem lowerChar_of_isDigit (plain : c.isDigit = true) : lowerChar c = c := by
  have digits : ∀ n < 58, 48 ≤ n → lowerChar (Char.ofNat n) = Char.ofNat n := by decide
  obtain ⟨low, high⟩ := toNat_of_isDigit plain
  have same := digits c.toNat high low
  rwa [Char.ofNat_toNat] at same

theorem dropWhile_eq_self {drop : Char → Bool} (kept : ∀ c ∈ cs, drop c = false) :
    cs.dropWhile drop = cs :=
  List.dropWhile_eq_self_iff.2 fun more => by simp [kept _ (List.getElem_mem more)]

theorem trimBy_eq_self {drop : Char → Bool} (kept : ∀ c ∈ cs, drop c = false) :
    trimBy drop cs = cs := by
  rw [trimBy, dropWhile_eq_self kept, dropWhile_eq_self (by simpa using kept), List.reverse_reverse]

theorem takeWhile_congr {p q : Char → Bool} (same : ∀ c ∈ cs, p c = q c) :
    cs.takeWhile p = cs.takeWhile q := by
  induction cs with
  | nil => rfl
  | cons c cs ih =>
    obtain ⟨here, later⟩ := List.forall_mem_cons.1 same
    rw [List.takeWhile_cons, List.takeWhile_cons, here, ih later]

end Text

namespace Decimal

open TensorCalculus.Text

def isDecimal (c : Char) : Bool :=
  (decimalValue? c).isSome

/-- The number that decimal digits write. -/
def ofDecimals (cs : List Char) : Nat :=
  ofDigitValues (cs.filterMap decimalValue?)

variable {cs : List Char}

theorem digitRun_eq (nonempty : cs ≠ []) (plain : '_' ∉ cs) :
    digitRun cs = if cs.all isDecimal then .some (cs.filterMap decimalValue?) else none := by
  induction cs using digitRun.induct with
  | case1 => exact absurd rfl nonempty
  | case2 c =>
    cases found : decimalValue? c <;> simp [digitRun, isDecimal, found]
  | case3 c rest => simp at plain
  | case4 c rest more single ih =>
    have plain' : '_' ∉ rest := fun later => plain (List.mem_cons_of_mem c later)
    rw [digitRun.eq_4 c rest more single, ih more plain']
    cases found : decimalValue? c with
    | none => simp [isDecimal, found]
    | some d => by_cases decimal : rest.all isDecimal <;> simp [isDecimal, found, decimal]

section Digits

variable (digits : ∀ c ∈ cs, isDigit c = true)
include digits

theorem not_mem_of_digits {c : Char} (other : isDigit c = false) : c ∉ cs := by
  intro mem
  rw [digits c mem] at other
  cases other

theorem splitSign_of_digits : splitSign cs = (false, cs) := by
  have minus : '-' ∉ cs := not_mem_of_digits digits (by decide)
  have plus : '+' ∉ cs := not_mem_of_digits digits (by decide)
  unfold splitSign
  split
  · simp at minus
  · simp at plus
  · rfl

theorem readIntList?_of_digits (nonempty : cs ≠ []) :
    readIntList? cs = if cs.all isDecimal then .some (ofDecimals cs : Int) else none := by
  have trimmed : trimBy isNumeralBlank cs = cs :=
    trimBy_eq_self fun c mem => not_isNumeralBlank_of_isDigit (digits c mem)
  have run := digitRun_eq nonempty (not_mem_of_digits digits (by decide))
  simp only [readIntList?, trimmed, splitSign_of_digits digits, run]
  split <;> rfl

/-- What counts as the length of a numeral ends at the first digit that is not decimal. -/
theorem numeralDigits_of_digits : numeralDigits cs = (cs.takeWhile isDecimal).length := by
  have whole : cs.dropWhile isNumeralBlank = cs :=
    dropWhile_eq_self fun c mem => not_isNumeralBlank_of_isDigit (digits c mem)
  have front : (cs.takeWhile fun c => c == '_' || (decimalValue? c).isSome) =
      cs.takeWhile isDecimal := by
    refine takeWhile_congr fun c mem => ?_
    have other : c ≠ '_' := by
      rintro rfl
      exact not_mem_of_digits digits (by decide) mem
    rw [beq_false_of_ne other, Bool.false_or, isDecimal]
  have plain : '_' ∉ cs.takeWhile isDecimal := fun mem =>
    not_mem_of_digits digits (by decide) (List.takeWhile_subset _ mem)
  simp only [numeralDigits, whole, splitSign_of_digits digits, front]
  by_cases empty : cs.takeWhile isDecimal = []
  · rw [empty]
    rfl
  · rw [digitRun_eq empty plain, if_pos List.all_takeWhile, Option.getD_some,
      List.filterMap_length_eq_length]
    exact fun c mem => List.all_eq_true.1 List.all_takeWhile c mem

end Digits

/-- The decimal digits of a number are read as that number. -/
theorem ofDecimals_toDigits (n : Nat) : ofDecimals (Nat.toDigits 10 n) = n := by
  have values :
      (Nat.toDigits 10 n).filterMap decimalValue? = (Nat.toDigits 10 n).map
        (·.toNat - '0'.toNat) := by
    rw [← List.filterMap_eq_map]
    exact List.filterMap_congr fun c mem =>
      decimalValue?_of_isDigit (Nat.isDigit_of_mem_toDigits (by decide) (by decide) mem)
  calc
    ofDecimals (Nat.toDigits 10 n) = Nat.ofDigitChars 10 (Nat.toDigits 10 n) 0 := by
      rw [ofDecimals, values, ofDigitValues, List.foldl_map, Nat.ofDigitChars_eq_foldl]
    _ = n := Nat.ofDigitChars_ten_toDigits

end Decimal

namespace Literal

open TensorCalculus.Text TensorCalculus.Decimal

/-- Whether digits are no numeral: one of them is not decimal, or there are too many. -/
def Unreadable (digits : List Char) : Prop :=
  (∃ c ∈ digits, isDecimal c = false) ∨ digitLimit < digits.length

section Digits

variable {cs : List Char} (digits : ∀ c ∈ cs, isDigit c = true) (nonempty : cs ≠ [])
include digits nonempty

theorem wholeOfText_of_digits :
    wholeOfText (String.ofList cs) =
      if digitLimit < (cs.takeWhile isDecimal).length then
        .error (.value (.longNumeral (cs.takeWhile isDecimal).length))
      else if cs.all isDecimal then .ok (ofDecimals cs)
        else .error (.value (.notInteger (String.ofList cs))) := by
  rw [wholeOfText, readInt?, String.toList_ofList, numeralDigits_of_digits digits,
    readIntList?_of_digits digits nonempty]
  by_cases long : digitLimit < (cs.takeWhile isDecimal).length
  · simp only [if_pos long]
  · by_cases decimal : cs.all isDecimal <;> simp only [if_neg long, decimal] <;> rfl

theorem wholeOfText_of_readable (readable : ¬ Unreadable cs) :
    wholeOfText (String.ofList cs) = .ok (ofDecimals cs) := by
  simp only [Unreadable, not_or, not_exists, not_and, Bool.not_eq_false, Nat.not_lt] at readable
  obtain ⟨decimal, short⟩ := readable
  have whole : cs.takeWhile isDecimal = cs := List.takeWhile_eq_self_iff.2 decimal
  rw [wholeOfText_of_digits digits nonempty, whole, if_neg short.not_gt,
    if_pos (List.all_eq_true.2 decimal)]

theorem exists_wholeOfText_of_unreadable (unreadable : Unreadable cs) :
    ∃ cause, wholeOfText (String.ofList cs) = .error (.value cause) := by
  rw [wholeOfText_of_digits digits nonempty]
  by_cases long : digitLimit < (cs.takeWhile isDecimal).length
  · exact ⟨_, if_pos long⟩
  · have other : ¬ cs.all isDecimal := by
      intro decimal
      have whole : cs.takeWhile isDecimal = cs :=
        List.takeWhile_eq_self_iff.2 (List.all_eq_true.1 decimal)
      rcases unreadable with ⟨c, mem, other⟩ | many
      · rw [List.all_eq_true.1 decimal c mem] at other
        cases other
      · rw [whole] at long
        exact long many
    exact ⟨_, by rw [if_neg long, if_neg other]⟩

end Digits

end Literal

end TensorCalculus
