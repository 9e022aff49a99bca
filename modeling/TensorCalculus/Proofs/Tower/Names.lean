import TensorCalculus.Proofs.Decimal.Numerals
import TensorCalculus.Proofs.Tower.Dimensions
import TensorCalculus.Proofs.Tower.Numbers

/-!
# Names of algebras

A text names an algebra in one of two ways: by a name of its own, in any case, or by the general
name with a decimal numeral behind it. The name of a standard tag is such a name, so dimensions can
be read back from it. Digits that are not decimal, and too many digits, are taken for a numeral all
the same and refused as one. -/

namespace TensorCalculus

-- Powers of natural numbers are those of `Nat.pow`, as in the definitions.
attribute [local instance (2000)] instPowNat

open TensorCalculus.Text TensorCalculus.Decimal TensorCalculus.Literal TensorCalculus.Outcome

namespace AlgebraTag

/-- Whether a text is the general name, in any case, with given digits behind it, decimal or not. -/
structure Numbered (text : String) (digits : List Char) : Prop where
  key : (lower text).toList = "cayleydickson".toList ++ digits
  nonempty : digits ≠ []
  digits : ∀ c ∈ digits, isDigit c = true

/-- What a text names: an algebra with a name of its own, or a power of two. -/
inductive Names (text : String) : Nat → Prop
  | own {tag : AlgebraTag} (listed : tag ∈ named) (same : lower text = lower tag.name) :
    Names text tag.dimension.toNat
  | general {digits : List Char} {k : Nat} (numbered : Numbered text digits)
      (readable : ¬ Unreadable digits) (power : ofDecimals digits = 2 ^ k) : Names text (2 ^ k)

theorem Names.exists_pow {text : String} {n : Nat} (names : Names text n) : ∃ k, n = 2 ^ k := by
  cases names with
  | own listed =>
    obtain ⟨k, power⟩ := regular_of_mem_named listed
    exact ⟨k, by rw [power, Int.toNat_natCast]⟩
  | @general _ k => exact ⟨k, rfl⟩

section Reading

variable {text : String} {digits : List Char}

theorem dimensionOf_of_own {tag : AlgebraTag} (listed : tag ∈ named)
    (same : lower text = lower tag.name) : dimensionOf text = .ok tag.dimension.toNat := by
  have found :
      ∀ tag ∈ named, named.find? (fun other => lower other.name = lower tag.name) = .some tag := by
    decide +kernel
  simp only [dimensionOf, same, found tag listed]

theorem not_own_of_numbered (numbered : Numbered text digits) (tag : AlgebraTag)
    (listed : tag ∈ named) : lower text ≠ lower tag.name := by
  have apart : ∀ tag ∈ named, ¬ "cayleydickson".toList <+: (lower tag.name).toList := by
    decide +kernel
  intro same
  refine apart tag listed ?_
  rw [← same, numbered.key]
  exact List.prefix_append ..

theorem find?_eq_none_of_not_own (others : ∀ tag ∈ named, lower text ≠ lower tag.name) :
    named.find? (fun tag => lower tag.name = lower text) = none := by
  rw [List.find?_eq_none]
  intro tag listed same
  exact others tag listed (of_decide_eq_true same).symm

theorem dimensionOf_of_numbered (numbered : Numbered text digits) :
    dimensionOf text = wholeOfText (String.ofList digits) >>= fun n =>
      if isPowerOfTwo n.toNat then .ok n.toNat else .error (.algebra (.unknown text)) := by
  have unnamed := find?_eq_none_of_not_own (not_own_of_numbered numbered)
  have front : "cayleydickson".toList.isPrefixOf (lower text).toList := by
    rw [numbered.key, List.isPrefixOf_iff_prefix]
    exact List.prefix_append ..
  have rest : (lower text).toList.drop "cayleydickson".toList.length = digits := by
    rw [numbered.key, List.drop_left]
  have accepted : ¬ digits.isEmpty ∧ digits.all isDigit :=
    ⟨by simpa using numbered.nonempty, List.all_eq_true.2 numbered.digits⟩
  simp only [dimensionOf, unnamed, if_pos front, rest, generalDimension, if_pos accepted]
  rfl

theorem dimensionOf_of_neither (others : ∀ tag ∈ named, lower text ≠ lower tag.name)
    (unnumbered : ∀ digits, ¬ Numbered text digits) :
    dimensionOf text = .error (.algebra (.unknown text)) := by
  simp only [dimensionOf, find?_eq_none_of_not_own others]
  split
  case isTrue front =>
    rw [List.isPrefixOf_iff_prefix] at front
    obtain ⟨digits, key⟩ := front
    rw [← key, List.drop_left, generalDimension, if_neg]
    rintro ⟨nonempty, all⟩
    exact unnumbered digits ⟨key.symm, by simpa using nonempty, List.all_eq_true.1 all⟩
  case isFalse => rfl

theorem dimensionOf_of_readable (numbered : Numbered text digits) (readable : ¬ Unreadable digits) :
    dimensionOf text =
      if isPowerOfTwo (ofDecimals digits) then .ok (ofDecimals digits)
      else .error (.algebra (.unknown text)) := by
  rw [dimensionOf_of_numbered numbered,
    wholeOfText_of_readable numbered.digits numbered.nonempty readable]
  simp only [ok_bind, Int.toNat_natCast]

theorem exists_dimensionOf_of_unreadable (numbered : Numbered text digits)
    (unreadable : Unreadable digits) : ∃ cause, dimensionOf text = .error (.value cause) := by
  obtain ⟨cause, refused⟩ :=
    exists_wholeOfText_of_unreadable numbered.digits numbered.nonempty unreadable
  exact ⟨cause, by rw [dimensionOf_of_numbered numbered, refused, error_bind]⟩

theorem dimensionOf_of_names {n : Nat} (names : Names text n) : dimensionOf text = .ok n := by
  cases names with
  | own listed same => exact dimensionOf_of_own listed same
  | general numbered readable power =>
    rw [dimensionOf_of_readable numbered readable, power, if_pos (isPowerOfTwo_iff.2 ⟨_, rfl⟩)]

/-- Every text names a dimension, is unknown, or ends in digits that are no numeral. -/
theorem dimensionOf_cases (text : String) :
    (∃ n, Names text n) ∨ dimensionOf text = .error (.algebra (.unknown text)) ∨
      ∃ digits, Numbered text digits ∧ Unreadable digits := by
  by_cases own : ∃ tag ∈ named, lower text = lower tag.name
  · obtain ⟨tag, listed, same⟩ := own
    exact .inl ⟨_, .own listed same⟩
  by_cases general : ∃ digits, Numbered text digits
  · obtain ⟨digits, numbered⟩ := general
    by_cases unreadable : Unreadable digits
    · exact .inr (.inr ⟨digits, numbered, unreadable⟩)
    by_cases power : isPowerOfTwo (ofDecimals digits)
    · obtain ⟨k, same⟩ := isPowerOfTwo_iff.1 power
      exact .inl ⟨_, .general numbered unreadable same⟩
    · exact .inr (.inl (by rw [dimensionOf_of_readable numbered unreadable, if_neg power]))
  · refine .inr (.inl (dimensionOf_of_neither ?_ ?_))
    · exact fun tag listed same => own ⟨tag, listed, same⟩
    · exact fun digits numbered => general ⟨digits, numbered⟩

theorem dimensionOf_eq_ok_iff {n : Nat} : dimensionOf text = .ok n ↔ Names text n := by
  constructor
  · intro found
    rcases dimensionOf_cases text with ⟨m, names⟩ | unknown | ⟨digits, numbered, unreadable⟩
    · rw [dimensionOf_of_names names] at found
      cases found
      exact names
    · rw [unknown] at found
      cases found
    · obtain ⟨cause, refused⟩ := exists_dimensionOf_of_unreadable numbered unreadable
      rw [refused] at found
      cases found
  · exact dimensionOf_of_names

end Reading

section Standard

theorem isDigit_of_mem_toDigits {n : Nat} {c : Char} (mem : c ∈ Nat.toDigits 10 n) :
    c.isDigit = true :=
  Nat.isDigit_of_mem_toDigits (by decide) (by decide) mem

theorem numbered_general (n : Nat) : Numbered s!"CayleyDickson{(n : Int)}" (Nat.toDigits 10 n) where
  key := by
    have written : s!"CayleyDickson{(n : Int)}".toList = "CayleyDickson".toList ++
        Nat.toDigits 10 n := by
      rw [String.toList_append]
      exact congrArg _ Nat.toList_repr
    have digits : (Nat.toDigits 10 n).map lowerChar = Nat.toDigits 10 n :=
      (List.map_congr_left fun c mem => lowerChar_of_isDigit (isDigit_of_mem_toDigits mem)).trans
        (List.map_id _)
    have name : "CayleyDickson".toList.map lowerChar = "cayleydickson".toList := by decide
    rw [toList_lower, written, List.map_append, digits, name]
  nonempty := Nat.toDigits_ne_nil
  digits c mem := isDigit_of_decimalValue? (decimalValue?_of_isDigit (isDigit_of_mem_toDigits mem))

theorem readable_toDigits {n : Nat} (short : n < 10 ^ digitLimit) :
    ¬ Unreadable (Nat.toDigits 10 n) := by
  rintro (⟨c, mem, other⟩ | long)
  · rw [isDecimal, decimalValue?_of_isDigit (isDigit_of_mem_toDigits mem)] at other
    cases other
  · exact long.not_ge ((Nat.length_toDigits_le_iff (by decide) (by decide)).2 short)

/-- The name of a standard tag is read as its dimension. -/
theorem names_of_standard {k : Nat} (short : 2 ^ k < 10 ^ digitLimit) {tag : AlgebraTag}
    (found : standard (2 ^ k : Nat) = .ok tag) : Names tag.name (2 ^ k) := by
  unfold standard at found
  split at found
  case h_1 own listed =>
    cases found
    have dimension : tag.dimension = (2 ^ k : Nat) := by simpa using List.find?_some listed
    have names : Names tag.name tag.dimension.toNat := .own (List.mem_of_find?_eq_some listed) rfl
    rwa [dimension, Int.toNat_natCast] at names
  case h_2 =>
    split at found
    case isTrue =>
      cases found
      exact .general (numbered_general _) (readable_toDigits short) (ofDecimals_toDigits _)
    case isFalse => cases found

theorem standard_of_irregular {n : Int} (irregular : ∀ k : Nat, n ≠ (2 ^ k : Nat)) :
    standard n = .error (.algebra (.dimension n)) := by
  unfold standard
  split
  case h_1 tag listed =>
    obtain ⟨k, power⟩ := regular_of_mem_named (List.mem_of_find?_eq_some listed)
    have dimension : tag.dimension = n := by simpa using List.find?_some listed
    exact absurd (dimension.symm.trans power) (irregular k)
  case h_2 =>
    rw [if_neg]
    rintro ⟨positive, power⟩
    obtain ⟨k, same⟩ := isPowerOfTwo_iff.1 power
    exact irregular k (by omega)

end Standard

/-- Names of algebras are read exactly. A text is read as a dimension just when it names it, and
that is a power of two; any other text is unknown, but for the general name with digits behind it
that are not all decimal or too many, which is refused as a numeral. Each power of two has a tag,
from whose name it is read back and whose dimension gives the same tag again, as long as it is not
too long to be written. All other numbers that are not too long are refused as dimensions. -/
theorem names_read_exactly (text : String) (k : Nat) (n : Int) :
    (∀ d, dimensionOf text = .ok d ↔ Names text d) ∧
      (∀ d, Names text d → ∃ j, d = 2 ^ j) ∧
      ((∀ d, ¬ Names text d) → (∀ digits, Numbered text digits → ¬ Unreadable digits) →
        dimensionOf text = .error (.algebra (.unknown text))) ∧
      (∀ digits, Numbered text digits → Unreadable digits →
        ∃ cause, dimensionOf text = .error (.value cause)) ∧
      (2 ^ k < 10 ^ digitLimit →
        ∃ tag, ofDimension (2 ^ k : Nat) = .ok tag ∧ tag.dimension = (2 ^ k : Nat) ∧
        dimensionOf tag.name = .ok (2 ^ k) ∧ ofDimension tag.dimension = .ok tag) ∧
      ((∀ j : Nat, n ≠ (2 ^ j : Nat)) → n.natAbs < 10 ^ digitLimit →
        ofDimension n = .error (.algebra (.dimension n))) ∧
      (10 ^ digitLimit ≤ n.natAbs → ofDimension n = .error (.value .longInteger)) := by
  refine ⟨fun _ => dimensionOf_eq_ok_iff, fun _ => Names.exists_pow, fun unnamed readable => ?_,
    fun _ => exists_dimensionOf_of_unreadable, fun short => ?_, fun irregular short => ?_,
    ofDimension_of_long⟩
  · rcases dimensionOf_cases text with ⟨d, names⟩ | unknown | ⟨digits, numbered, unreadable⟩
    · exact absurd names (unnamed d)
    · exact unknown
    · exact absurd unreadable (readable digits numbered)
  · obtain ⟨tag, found, dimension⟩ := exists_standard k
    have made : ofDimension (2 ^ k : Nat) = .ok tag :=
      (ofDimension_of_short (by simpa using short)).trans found
    exact ⟨tag, made, dimension, dimensionOf_of_names (names_of_standard short found),
      by rw [dimension, made]⟩
  · rw [ofDimension_of_short short, standard_of_irregular irregular]

/-- The digits of the numeral come from three scripts. The dimension of the second tag has 31
digits. -/
theorem names_read_exactly_threeScripts :
    Names "cayleyDICKSON2٥６" 256 ∧ dimensionOf "cayleyDICKSON2٥６" = .ok 256 ∧
      (∃ tag, ofDimension (2 ^ (100 : Nat) : Nat) = .ok tag ∧
        dimensionOf tag.name = .ok (2 ^ 100)) ∧
      ofDimension (-12) = .error (.algebra (.dimension (-12))) := by
  obtain ⟨reads, -, -, -, standard, irregular, -⟩ := names_read_exactly "cayleyDICKSON2٥６" 100 (-12)
  have numbered : Numbered "cayleyDICKSON2٥６" ['2', '٥', '６'] :=
    ⟨by decide +kernel, by decide, List.all_eq_true.1 (by decide +kernel)⟩
  have decimal : ∀ c ∈ ['2', '٥', '６'], isDecimal c = true := List.all_eq_true.1 (by decide +kernel)
  have readable : ¬ Unreadable ['2', '٥', '６'] := by
    rintro (⟨c, mem, other⟩ | long)
    · rw [decimal c mem] at other
      cases other
    · exact absurd long (by decide +kernel)
  have names : Names "cayleyDICKSON2٥６" 256 :=
    .general (k := 8) numbered readable (by decide +kernel)
  have room : 10 ^ (31 : Nat) ≤ 10 ^ digitLimit := Nat.pow_le_pow_right (by decide) (by decide)
  obtain ⟨tag, made, -, read, -⟩ := standard (Nat.lt_of_lt_of_le (by decide +kernel) room)
  have negative (k : Nat) : (-12 : Int) ≠ (2 ^ k : Nat) := by
    have natural := Int.natCast_nonneg (2 ^ k)
    omega
  exact ⟨names, (reads _).2 names, ⟨tag, made, read⟩,
    irregular negative (Nat.lt_of_lt_of_le (by decide +kernel) room)⟩

/-- A superscript is a digit without being decimal, so a name that ends in one is refused as a
numeral. A power of two with 4301 digits has no tag, as its name cannot be written. -/
theorem superscript_refused_as_numeral :
    dimensionOf "CayleyDickson²" = .error (.value (.notInteger "²")) ∧
      ofDimension (2 ^ (14285 : Nat) : Nat) = .error (.value .longInteger) := by
  constructor
  · have digits : ∀ c ∈ ['²'], isDigit c = true := List.all_eq_true.1 (by decide +kernel)
    have numbered : Numbered "CayleyDickson²" ['²'] := ⟨by decide +kernel, by decide, digits⟩
    rw [dimensionOf_of_numbered numbered, wholeOfText_of_digits digits (by decide)]
    rfl
  · apply ofDimension_of_long
    decide +kernel

end AlgebraTag

end TensorCalculus
