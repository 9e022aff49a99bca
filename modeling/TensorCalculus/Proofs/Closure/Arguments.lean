import TensorCalculus.Catalogue
import TensorCalculus.Closure
import TensorCalculus.Proofs.Decimal.Bits
import TensorCalculus.Proofs.Settings.Drafts

/-!
# Limits and tolerances that are handed over

A limit and a tolerance can be handed to a closure by themselves or within settings. Settings are
checked and keep the tolerance as a double, while what is handed over by itself is taken as it is.
Both come to the same as long as the limit is positive and the tolerance neither negative nor raised
when it is made a double. -/

namespace TensorCalculus

open TensorCalculus.Outcome

namespace Literal

variable {t : Literal} {x : Float}

/-- A tolerance that settings accept and that is not raised when it is made a double. -/
structure Tolerable (t : Literal) (x : Float) : Prop where
  double : t.toDouble = .ok x
  nonnegative : ¬ x < 0
  unraised : t = .real x ∨ stands .atMost (.real x) t = .ok true

theorem tolerable_real (nonnegative : ¬ x < 0) : Tolerable (.real x) x :=
  ⟨rfl, nonnegative, .inl rfl⟩

/-- Natural numbers up to the last one from which on doubles leave some out can all be
tolerances. -/
theorem exists_tolerable_int {n : Int} (natural : 0 ≤ n) (small : n ≤ 2 ^ 53) :
    ∃ x, Tolerable (.int n) x := by
  obtain ⟨n, rfl⟩ := Int.eq_ofNat_of_zero_le natural
  have inside : n < Decimal.wholeLimit := by
    apply Nat.lt_of_le_of_lt (m := 2 ^ 53) (by omega)
    decide +kernel
  have exact : Amount.compareWhole n (Decimal.nearest false n 1) = some .eq :=
    Decimal.compareWhole_nearest (by omega)
  refine ⟨_, doubleOfInt_natCast inside,
    Decimal.not_nearest_lt_zero (Decimal.nearestBits_lt_infinityBits inside), .inr ?_⟩
  change Except.ok (Relation.atMost.admitsAny ((Amount.compareWhole n _).map Ordering.swap)) = _
  rw [exact]
  rfl

theorem withinLiteral_real (x : Float) : Fixpoint.withinLiteral (.real x) = Fixpoint.within x := by
  funext y
  have same : Relation.atMost.admitsAny (Amount.compareDoubles y x) = decide (y ≤ x) := by
    rw [Bool.eq_iff_iff, decide_eq_true_iff, Decimal.admitsAny_atMost_iff]
  exact congrArg Except.ok same

theorem Tolerable.withinLiteral_int {n : Int} (tolerable : Tolerable (.int n) x) :
    Fixpoint.withinLiteral (.int n) = Fixpoint.within x := by
  have natural : 0 ≤ n := by
    by_contra negative
    exact tolerable.nonnegative (lt_zero_of_doubleOfInt (Int.not_le.1 negative) tolerable.double)
  obtain ⟨n, rfl⟩ := Int.eq_ofNat_of_zero_le natural
  have small : n < Decimal.wholeLimit := exists_doubleOfInt_iff.1 ⟨x, tolerable.double⟩
  have double := tolerable.double
  rw [toDouble, doubleOfInt_natCast small] at double
  cases double
  have finite := Decimal.nearestBits_lt_infinityBits small
  have bits := Decimal.toNat_toBits_nearest finite
  have down := tolerable.unraised.resolve_left (by simp)
  funext y
  exact congrArg Except.ok
    (Decimal.admitsAny_compareWhole_eq (bits.trans_lt finite) bits (Except.ok.inj down) y)

/-- Truth values count as zero and one. -/
theorem Tolerable.int_of_bool {b : Bool} (tolerable : Tolerable (.bool b) x) :
    Tolerable (.int (if b then 1 else 0)) x where
  double := by
    rw [← tolerable.double]
    cases b <;> rfl
  nonnegative := tolerable.nonnegative
  unraised := .inr (tolerable.unraised.resolve_left (by simp))

theorem Tolerable.withinLiteral_eq (tolerable : Tolerable t x) :
    Fixpoint.withinLiteral t = Fixpoint.within x := by
  cases t with
  | real x' =>
    cases tolerable.double
    exact withinLiteral_real x
  | int n => exact tolerable.withinLiteral_int
  | bool b => exact tolerable.int_of_bool.withinLiteral_int
  | _ => rcases tolerable.unraised with other | failed <;> contradiction

end Literal

namespace Closure

/-- The closure with a limit and a tolerance that are handed over by themselves, beside the usual
settings. -/
def handed (c : Catalogue) (relation : Operand Float) (limit : Int) (tolerance : Literal) :
    Except Fault (Fixpoint.Outcome (Tensor Float)) :=
  semiring (SettingsDraft.normalize {}) (.ok c.sumProduct) relation (some (.ok limit))
    (some (Fixpoint.withinLiteral tolerance))

/-- The closure with a limit and a tolerance within settings. -/
def configured (c : Catalogue) (relation : Operand Float) (limit : Int) (tolerance : Literal) :
    Except Fault (Fixpoint.Outcome (Tensor Float)) :=
  semiring (SettingsDraft.normalize { iterationLimit := .int limit, tolerance }) (.ok c.sumProduct)
    relation none none

theorem normalize_limits (limit : Int) (tolerance : Literal) :
    SettingsDraft.normalize { iterationLimit := .int limit, tolerance } =
      (do
        let iterationLimit ← SettingsDraft.checkIterationLimit (.int limit)
        let tolerance ← SettingsDraft.checkTolerance tolerance
        return { iterationLimit, tolerance }) := by
  have strategy : SettingsDraft.checkStrategy (.text "loop") = .ok .loop := rfl
  have repetition : SettingsDraft.checkRepetition (.text "diagonal") = .ok .diagonal := rfl
  have sizeLimit : SettingsDraft.checkSizeLimit .null = .ok none := rfl
  simp only [SettingsDraft.normalize, strategy, repetition, sizeLimit, ok_bind]
  rfl

/-- Behind a positive limit only the tolerance is left to be checked. -/
theorem normalize_of_positive {limit : Int} (positive : 1 ≤ limit) (tolerance : Literal) :
    SettingsDraft.normalize { iterationLimit := .int limit, tolerance } =
      SettingsDraft.checkTolerance tolerance >>= fun tolerance =>
        .ok { iterationLimit := limit, tolerance } := by
  rw [normalize_limits, SettingsDraft.checkIterationLimit_eq_ok_iff.2 ⟨rfl, positive⟩]
  rfl

theorem extend_settings (usual : Settings Float) (s : SumProduct Float) (relation : Tensor Float)
    (limit : Int) (tolerance : Float) :
    extend { usual with iterationLimit := limit, tolerance := tolerance } s relation =
      extend usual s relation := rfl

/-- All that a closure takes from its settings, apart from its rounds, are the limit and the
tolerance. -/
theorem semiring_settings (usual : Settings Float) (s : SumProduct Float) (relation : Operand Float)
    (limit : Int) (tolerance : Float) :
    semiring (.ok { usual with iterationLimit := limit, tolerance := tolerance }) (.ok s) relation
      none none =
      semiring (.ok usual) (.ok s) relation (some (.ok limit))
        (some (Fixpoint.within tolerance)) := by
  simp only [semiring, ok_bind, Option.getD_none, Option.getD_some, extend_settings]

variable {c : Catalogue} {relation : Operand Float} {limit : Int} {tolerance : Literal}

theorem configured_eq_handed {x : Float} (positive : 1 ≤ limit)
    (tolerable : tolerance.Tolerable x) :
    configured c relation limit tolerance = handed c relation limit tolerance := by
  have accepted : SettingsDraft.checkTolerance tolerance = .ok x := by
    rw [SettingsDraft.checkTolerance, tolerable.double, ok_bind, if_neg tolerable.nonnegative,
      pure_eq_ok]
  have usual : SettingsDraft.normalize {} = .ok { tolerance := 1e-6 } := rfl
  rw [configured, handed, normalize_of_positive positive, accepted, ok_bind, usual,
    tolerable.withinLiteral_eq]
  exact semiring_settings { tolerance := 1e-6 } c.sumProduct relation limit x

theorem semiring_of_not_square {s : Pending (Settings Float)} {limit : Option (Pending Int)}
    {settled : Option (Float → Except Fault Bool)} {fault : Fault}
    (refused : expectSquare "semiring_closure" relation = .error fault) :
    semiring s (.ok c.sumProduct) relation limit settled = .error fault := by
  rw [semiring, refused, error_bind]

theorem configured_of_refused {r : Tensor Float} {fault : Fault}
    (square : expectSquare "semiring_closure" relation = .ok r)
    (refused : SettingsDraft.normalize { iterationLimit := .int limit, tolerance } = .error fault) :
    configured c relation limit tolerance = .error fault := by
  rw [configured, semiring, square, ok_bind, refused, error_bind]

end Closure

/-- A limit and a tolerance come to the same closure whether they are handed over by themselves or
within settings, for every member of the catalogue, every relation, every positive limit and every
tolerance that is neither negative nor raised when it is made a double. What is no square matrix is
refused alike with any limit and tolerance. Apart from that, settings are refused for a limit that
is not positive, and for a tolerance that is no double or below zero. -/
theorem closure_settings_agree (c : Catalogue) (relation : Operand Float) (limit : Int)
    (tolerance : Literal) : (∀ x, 1 ≤ limit → tolerance.Tolerable x →
      Closure.configured c relation limit tolerance = Closure.handed c relation limit tolerance) ∧
    (∀ fault, Closure.expectSquare "semiring_closure" relation = .error fault →
      Closure.configured c relation limit tolerance = .error fault ∧
        Closure.handed c relation limit tolerance = .error fault) ∧
    (∀ r, Closure.expectSquare "semiring_closure" relation = .ok r →
      (limit ≤ 0 →
        Closure.configured c relation limit tolerance = .error (.value .iterationLimit)) ∧
      (1 ≤ limit → ∀ fault, tolerance.toDouble = .error fault →
        Closure.configured c relation limit tolerance = .error fault) ∧
      (1 ≤ limit → ∀ x, tolerance.toDouble = .ok x → x < 0 →
        Closure.configured c relation limit tolerance = .error (.value .tolerance))) := by
  refine ⟨fun x positive tolerable => Closure.configured_eq_handed positive tolerable,
    fun fault refused => ?_,
    fun r square =>
      ⟨fun few => ?_, fun positive fault failed => ?_, fun positive x double negative => ?_⟩⟩
  · exact ⟨Closure.semiring_of_not_square refused, Closure.semiring_of_not_square refused⟩
  · apply Closure.configured_of_refused square
    rw [Closure.normalize_limits, SettingsDraft.checkIterationLimit, Literal.toInt, ok_bind,
      if_pos few, error_bind]
  · apply Closure.configured_of_refused square
    rw [Closure.normalize_of_positive positive, SettingsDraft.checkTolerance, failed, error_bind,
      error_bind]
  · apply Closure.configured_of_refused square
    rw [Closure.normalize_of_positive positive, SettingsDraft.checkTolerance, double, ok_bind,
      if_pos negative, error_bind]

def hop : Tensor Float := ⟨"hop", ["x", "z"], [2, 2], #[0, 1, 0, 0], rfl, rfl⟩

/-- A way back to the start that is shorter every time. -/
def descent : Tensor Float := ⟨"descent", ["x", "z"], [1, 1], #[-9007199254740996], rfl, rfl⟩

def pairOfHops : Tensor Float := ⟨"pair", ["x", "z"], [1, 2], #[1, 1], rfl, rfl⟩

/-- A fraction and a whole number as tolerances, a matrix that is not square, and settings that are
refused. -/
theorem closure_settings_agree_hop :
    (Literal.real 0.5).Tolerable 0.5 ∧
      Closure.configured .boolean (.real hop) 8 (.real 0.5) =
        Closure.handed .boolean (.real hop) 8 (.real 0.5) ∧
      (∃ x, (Literal.int 3).Tolerable x ∧
        Closure.configured .minPlus (.real descent) 8 (.int 3) =
          Closure.handed .minPlus (.real descent) 8 (.int 3)) ∧
      (∃ fault, Closure.configured .counting (.real pairOfHops) 0 (.int 3) = .error fault ∧
        Closure.handed .counting (.real pairOfHops) 0 (.int 3) = .error fault) ∧
      Closure.configured .viterbi (.real hop) 0 (.real 0.5) = .error (.value .iterationLimit) ∧
      Closure.configured .viterbi (.real hop) 8 (.int Decimal.wholeLimit) =
        .error (.range .integerTooLarge) ∧
      Closure.configured .viterbi (.real hop) 8 (.real (-1)) = .error (.value .tolerance) := by
  have half : (Literal.real 0.5).Tolerable 0.5 := Literal.tolerable_real (by decide +kernel)
  obtain ⟨x, three⟩ := Literal.exists_tolerable_int (n := 3) (by decide) (by decide)
  have square : Closure.expectSquare "semiring_closure" (.real hop) = .ok hop := rfl
  refine ⟨half, ?_, ⟨x, three, ?_⟩, ?_, ?_, ?_, ?_⟩
  · exact (closure_settings_agree .boolean (.real hop) 8 (.real 0.5)).1 _ (by decide) half
  · exact (closure_settings_agree .minPlus (.real descent) 8 (.int 3)).1 x (by decide) three
  · exact ⟨_, (closure_settings_agree .counting (.real pairOfHops) 0 (.int 3)).2.1 _ rfl⟩
  · exact ((closure_settings_agree .viterbi (.real hop) 0 (.real 0.5)).2.2 hop square).1 (by decide)
  · have large : Literal.doubleOfInt Decimal.wholeLimit = .error (.range .integerTooLarge) := by
      apply Literal.doubleOfInt_of_large
      rw [Int.natAbs_natCast]
    obtain ⟨-, -, refused⟩ :=
      closure_settings_agree .viterbi (.real hop) 8 (.int Decimal.wholeLimit)
    exact (refused hop square).2.1 (by decide) (.range .integerTooLarge) large
  · have negative : (-1 : Float) < 0 := by decide +kernel
    exact ((closure_settings_agree .viterbi (.real hop) 8 (.real (-1))).2.2 hop square).2.2
      (by decide) _ rfl negative

/-- What is handed over by itself is neither checked nor made a double: no round at all, a tolerance
below zero, and a whole number that the double nearest to it exceeds. -/
theorem closure_settings_differ :
    (Closure.configured .boolean (.real hop) 0 (.real 0) = .error (.value .iterationLimit) ∧
      (Closure.handed .boolean (.real hop) 0 (.real 0)).toOption.map (·.converged) = some false) ∧
    (Closure.configured .boolean (.real hop) 1 (.int (-1)) = .error (.value .tolerance) ∧
      (Closure.handed .boolean (.real hop) 1 (.int (-1))).toOption.map (·.converged) = some false) ∧
    (Closure.configured .minPlus (.real descent) 1 (.int (2 ^ 53 + 3))).toOption.map
      (·.converged) = some true ∧
        (Closure.handed .minPlus (.real descent) 1 (.int (2 ^ 53 + 3))).toOption.map
          (·.converged) = some false := by
  refine ⟨⟨rfl, ?_⟩, ⟨rfl, ?_⟩, ?_, ?_⟩ <;> decide +kernel

end TensorCalculus
