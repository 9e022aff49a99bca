import TensorCalculus.Layout.Limits
import TensorCalculus.Proofs.Layout.Coordinates
import TensorCalculus.Proofs.Outcome

/-!
# Which shapes can be laid out

Sizes are multiplied one after the other, and no product on the way may exceed what a machine word
counts. Where no axis is empty the last product is the greatest, so only the bytes of the whole
block matter. A block that fills its shape can be laid out unless the axes, one of the sizes, or
these bytes are too many. -/

namespace TensorCalculus.Layout

open TensorCalculus.Outcome

/-- A shape in which a block that fills it can be laid out. The bytes of a single axis are not
counted, and those of several axes without the empty ones. -/
structure Addressable (shape : List Nat) : Prop where
  axes : shape.length ≤ axisLimit
  sizes : ∀ d ∈ shape, d ≤ wordLimit
  bytes : 2 ≤ shape.length → elementBytes * volume (shape.filter (· ≠ 0)) ≤ wordLimit

instance (shape : List Nat) : Decidable (Addressable shape) :=
  decidable_of_iff (shape.length ≤ axisLimit ∧ (∀ d ∈ shape, d ≤ wordLimit) ∧
      (2 ≤ shape.length → elementBytes * volume (shape.filter (· ≠ 0)) ≤ wordLimit))
    ⟨fun ⟨axes, sizes, bytes⟩ => ⟨axes, sizes, bytes⟩, fun ⟨axes, sizes, bytes⟩ =>
      ⟨axes, sizes, bytes⟩⟩

section Countable

variable {product n : Nat} {ds : List Nat}

theorem volume_filter_pos (ds : List Nat) : 0 < volume (ds.filter (· ≠ 0)) := by
  induction ds with
  | nil => exact Nat.one_pos
  | cons d ds ih =>
    by_cases empty : d = 0
    · rwa [List.filter_cons_of_neg (by simpa using empty)]
    · rw [List.filter_cons_of_pos (by simpa using empty), volume_cons]
      exact Nat.mul_pos (Nat.pos_of_ne_zero empty) ih

/-- What is counted is the product of all sizes, and it can be counted. -/
theorem eq_of_countable? (small : product ≤ wordLimit) (counted : countable? product ds = some n) :
    n = product * volume ds ∧ n ≤ wordLimit := by
  induction ds generalizing product with
  | nil =>
    cases counted
    exact ⟨(Nat.mul_one _).symm, small⟩
  | cons d ds ih =>
    rw [countable?] at counted
    split at counted
    case isTrue => cases counted
    case isFalse below =>
      obtain ⟨whole, bound⟩ := ih (Nat.not_lt.1 below) counted
      exact ⟨by rw [whole, volume_cons, Nat.mul_assoc], bound⟩

/-- Sizes can be counted on the way when they can without the empty axes. -/
theorem countable?_of_le (small : product * volume (ds.filter (· ≠ 0)) ≤ wordLimit) :
    countable? product ds = some (product * volume ds) := by
  induction ds generalizing product with
  | nil => rw [countable?, volume_nil, Nat.mul_one]
  | cons d ds ih =>
    rw [countable?, volume_cons, ← Nat.mul_assoc]
    by_cases empty : d = 0
    · subst empty
      rw [Nat.mul_zero, if_neg (Nat.not_lt_zero _)]
      apply ih
      rw [Nat.zero_mul]
      exact Nat.zero_le _
    · rw [List.filter_cons_of_pos (by simpa using empty), volume_cons, ← Nat.mul_assoc] at small
      have here : product * d ≤ wordLimit :=
        (Nat.le_mul_of_pos_right _ (volume_filter_pos ds)).trans small
      rw [if_neg (Nat.not_lt.2 here)]
      exact ih small

end Countable

theorem checkBytes_eq_ok_iff {shape : List Nat} :
    checkBytes shape = .ok () ↔ elementBytes * volume (shape.filter (· ≠ 0)) ≤ wordLimit := by
  rw [checkBytes]
  constructor
  · intro checked
    split at checked
    case h_1 bytes counted =>
      obtain ⟨rfl, bound⟩ := eq_of_countable? (by decide) counted
      exact bound
    case h_2 => cases checked
  · intro small
    rw [countable?_of_le]
    simpa using small

theorem checkAxes_eq_ok_iff {rank : Nat} : checkAxes rank = .ok () ↔ rank ≤ axisLimit := by
  rw [checkAxes]
  split
  case isTrue exceeded => simp [exceeded]
  case isFalse within => simp [Nat.not_lt.1 within]

theorem checkLengths_eq_ok_iff {shape : List Nat} : checkLengths shape = .ok () ↔
    ∀ d ∈ shape, d ≤ wordLimit := by
  rw [checkLengths]
  split
  case isTrue exceeded =>
    obtain ⟨d, hd, large⟩ := List.any_eq_true.1 exceeded
    simp only [reduceCtorEq, false_iff]
    intro small
    exact absurd (small d hd) (Nat.not_le.2 (of_decide_eq_true large))
  case isFalse within =>
    simp only [true_iff]
    intro d hd
    by_contra large
    exact within (List.any_eq_true.2 ⟨d, hd, decide_eq_true (Nat.not_le.1 large)⟩)

/-- A shape is the whole number of elements where it has one axis. -/
theorem eq_singleton_volume_iff {shape : List Nat} : shape = [volume shape] ↔ shape.length = 1 := by
  constructor
  · intro same
    rw [same, List.length_singleton]
  · intro single
    obtain ⟨d, rfl⟩ := List.length_eq_one_iff.1 single
    rw [volume_cons, volume_nil, Nat.mul_one]

/-- A block that fills a shape can be laid out in it exactly when the shape is addressable. -/
theorem checkRegrouping_volume_iff {shape : List Nat} :
    checkRegrouping (volume shape) shape = .ok () ↔ Addressable shape := by
  rw [checkRegrouping]
  constructor
  · intro checked
    obtain ⟨_, axes, checked⟩ := bind_eq_ok_iff.1 checked
    obtain ⟨_, lengths, checked⟩ := bind_eq_ok_iff.1 checked
    refine ⟨checkAxes_eq_ok_iff.1 axes, checkLengths_eq_ok_iff.1 lengths, ?_⟩
    intro several
    rw [if_neg (mt eq_singleton_volume_iff.1 (by omega))] at checked
    split at checked
    case isTrue => exact checkBytes_eq_ok_iff.1 checked
    case isFalse => cases checked
  · rintro ⟨axes, sizes, bytes⟩
    rw [checkAxes_eq_ok_iff.2 axes, ok_bind, checkLengths_eq_ok_iff.2 sizes, ok_bind]
    split
    case isTrue => rfl
    case isFalse others =>
      have small : elementBytes * volume (shape.filter (· ≠ 0)) ≤ wordLimit := by
        cases shape with
        | nil => decide
        | cons d ds =>
          apply bytes
          have single := mt eq_singleton_volume_iff.2 others
          rw [List.length_cons] at single ⊢
          omega
      have counted : 1 * volume (shape.filter (· ≠ 0)) ≤ wordLimit := by
        unfold elementBytes at small
        omega
      rw [countable?_of_le counted, Nat.one_mul, if_pos rfl]
      exact checkBytes_eq_ok_iff.2 small

section Rearranged

variable {shape other : List Nat}

theorem volume_filter_le_of_sublist (fewer : other.Sublist shape) :
    volume (other.filter (· ≠ 0)) ≤ volume (shape.filter (· ≠ 0)) := by
  induction fewer with
  | slnil => exact le_rfl
  | cons d _ ih =>
    refine ih.trans ?_
    by_cases empty : d = 0
    · rw [List.filter_cons_of_neg (by simpa using empty)]
    · rw [List.filter_cons_of_pos (by simpa using empty), volume_cons]
      exact Nat.le_mul_of_pos_left _ (Nat.pos_of_ne_zero empty)
  | cons_cons d _ ih =>
    by_cases empty : d = 0
    · rwa [List.filter_cons_of_neg (by simpa using empty),
        List.filter_cons_of_neg (by simpa using empty)]
    · rw [List.filter_cons_of_pos (by simpa using empty),
        List.filter_cons_of_pos (by simpa using empty), volume_cons, volume_cons]
      exact Nat.mul_le_mul_left d ih

/-- Where no axis is empty, a block can be laid out when its bytes can be counted. -/
theorem addressable_of_bytes_le (nonempty : ∀ d ∈ shape, d ≠ 0) (axes : shape.length ≤ axisLimit)
    (bytes : elementBytes * volume shape ≤ wordLimit) : Addressable shape := by
  have same : shape.filter (· ≠ 0) = shape := List.filter_eq_self.2 fun d hd =>
    decide_eq_true (nonempty d hd)
  refine ⟨axes, fun d hd => ?_, fun _ => by rwa [same]⟩
  have least := volume_filter_le_of_sublist (List.singleton_sublist.2 hd)
  rw [same, List.filter_cons_of_pos (by simpa using nonempty d hd), List.filter_nil, volume_cons,
    volume_nil, Nat.mul_one] at least
  unfold elementBytes at bytes
  omega

/-- Without some of its axes a shape can still be laid out. -/
theorem Addressable.sublist (addressable : Addressable shape) (fewer : other.Sublist shape) :
    Addressable other where
  axes := fewer.length_le.trans addressable.axes
  sizes d hd := addressable.sizes d (fewer.subset hd)
  bytes several := (Nat.mul_le_mul_left _ (volume_filter_le_of_sublist fewer)).trans
    (addressable.bytes (several.trans fewer.length_le))

/-- The order of the axes does not matter to whether a shape can be laid out. -/
theorem Addressable.perm (addressable : Addressable shape) (rearranged : shape.Perm other) :
    Addressable other where
  axes := rearranged.length_eq ▸ addressable.axes
  sizes d hd := addressable.sizes d (rearranged.mem_iff.2 hd)
  bytes several := by
    have same : volume (shape.filter (· ≠ 0)) = volume (other.filter (· ≠ 0)) := by
      rw [← Int.ofNat_inj, ← volume_cast, ← volume_cast]
      exact volume_perm ((rearranged.filter _).map _)
    rw [← same]
    exact addressable.bytes (rearranged.length_eq ▸ several)

end Rearranged

theorem fitsWord_natCast {n : Nat} : fitsWord n = true ↔ n ≤ wordLimit := by
  simp only [fitsWord, Bool.and_eq_true, decide_eq_true_eq]
  omega

/-- A list of single items can be made exactly when its items are not too many. -/
theorem checkList_natCast_eq_ok_iff {n : Nat} : checkList n 1 = .ok () ↔ n ≤ listLimit := by
  have within : listLimit ≤ wordLimit := Nat.div_le_self _ _
  unfold checkList
  split
  case isTrue overlong =>
    rw [Bool.not_eq_true', ← Bool.not_eq_true, fitsWord_natCast] at overlong
    simp only [reduceCtorEq, false_iff]
    omega
  case isFalse =>
    split
    case isTrue long =>
      simp only [reduceCtorEq, false_iff]
      omega
    case isFalse short =>
      simp only [true_iff]
      omega

/-- Zeros for one axis can be laid out exactly when their bytes can be counted. -/
theorem checkBlock_singleton_eq_ok_iff {n : Nat} : checkBlock [(n : Int)] = .ok () ↔
    elementBytes * n ≤ wordLimit := by
  have bytes : elementBytes * volume ([n].filter (· ≠ 0)) ≤ wordLimit ↔
      elementBytes * n ≤ wordLimit := by
    by_cases empty : n = 0
    · simp [empty, elementBytes, wordLimit]
    · simp [empty]
  have nonnegative : ¬ [(n : Int)].any (· < 0) := by
    simp
  rw [checkBlock, if_neg nonnegative]
  split
  case isTrue overlong =>
    rw [List.all_cons, List.all_nil, Bool.and_true, Bool.not_eq_true', ← Bool.not_eq_true,
      fitsWord_natCast] at overlong
    simp only [reduceCtorEq, false_iff, elementBytes]
    omega
  case isFalse => rw [← bytes, ← checkBytes_eq_ok_iff, List.map_singleton, Int.toNat_natCast]

theorem failsWith_checkAxes (rank : Nat) : FailsWith (·.kind = "ValueError") (checkAxes rank) := by
  rw [checkAxes]
  split
  case isTrue => exact failsWith_error rfl
  case isFalse => exact failsWith_ok

/-- Elements that cannot be laid out in a shape are a wrong value. -/
theorem failsWith_checkRegrouping (size : Nat) (shape : List Nat) :
    FailsWith (·.kind = "ValueError") (checkRegrouping size shape) := by
  have lengths : FailsWith (·.kind = "ValueError") (checkLengths shape) := by
    rw [checkLengths]
    split
    case isTrue => exact failsWith_error rfl
    case isFalse => exact failsWith_ok
  have bytes : FailsWith (·.kind = "ValueError") (checkBytes shape) := by
    rw [checkBytes]
    split
    case h_1 => exact failsWith_ok
    case h_2 => exact failsWith_error rfl
  unfold checkRegrouping
  apply (failsWith_checkAxes shape.length).bind
  intro _
  apply lengths.bind
  intro _
  split
  case isTrue => exact failsWith_ok
  case isFalse =>
    split
    case isTrue => exact bytes
    case isFalse => exact failsWith_error rfl

end TensorCalculus.Layout
