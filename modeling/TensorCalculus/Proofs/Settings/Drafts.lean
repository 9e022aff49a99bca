import TensorCalculus.Proofs.Decimal.Doubles
import TensorCalculus.Proofs.Outcome
import TensorCalculus.Settings

/-!
# What drafts of settings say

A draft is accepted when all its fields can be read, both names are known, both limits are positive
and the tolerance is not below zero. The settings then say what the draft says, and written as a
draft again they are accepted as they are. A tolerance that is not a number passes, for it is not
below zero either. -/

namespace TensorCalculus

open TensorCalculus.Outcome

theorem Strategy.ofName?_eq_some_iff {name : String} {strategy : Strategy} :
    ofName? name = some strategy ↔ name = strategy.name := by
  rw [ofName?]
  by_cases loop : name = "loop"
  · subst loop
    cases strategy <;> decide
  · by_cases bulk : name = "numpy"
    · subst bulk
      cases strategy <;> decide
    · rw [if_neg loop, if_neg bulk]
      cases strategy <;> simp [Strategy.name, loop, bulk]

theorem RepetitionPolicy.ofName?_eq_some_iff {name : String} {policy : RepetitionPolicy} :
    ofName? name = some policy ↔ name = policy.name := by
  rw [ofName?]
  by_cases diagonal : name = "diagonal"
  · subst diagonal
    cases policy <;> decide
  · by_cases reject : name = "reject"
    · subst reject
      cases policy <;> decide
    · rw [if_neg diagonal, if_neg reject]
      cases policy <;> simp [RepetitionPolicy.name, diagonal, reject]

/-- Settings within their bounds. -/
structure Settings.Usable (s : Settings Float) : Prop where
  strategy : s.strategy.name = "loop" ∨ s.strategy.name = "numpy"
  repetition : s.repetition.name = "diagonal" ∨ s.repetition.name = "reject"
  sizeLimit : ∀ limit, s.sizeLimit = some limit → 1 ≤ limit
  iterationLimit : 1 ≤ s.iterationLimit
  tolerance : 0 ≤ s.tolerance ∨ s.tolerance.isNaN = true

theorem Strategy.name_eq (strategy : Strategy) : strategy.name = "loop" ∨
    strategy.name = "numpy" := by
  cases strategy with
  | loop => exact .inl rfl
  | bulk => exact .inr rfl

theorem RepetitionPolicy.name_eq (policy : RepetitionPolicy) : policy.name = "diagonal" ∨
    policy.name = "reject" := by
  cases policy with
  | diagonal => exact .inl rfl
  | reject => exact .inr rfl

namespace SettingsDraft

variable {draft : SettingsDraft} {s : Settings Float} {value : Literal}

/-- Settings that say, field by field, what a draft says. -/
structure Follows (draft : SettingsDraft) (s : Settings Float) : Prop where
  strategy : nameOf "loop" draft.strategy = s.strategy.name
  repetition : nameOf "diagonal" draft.repetition = s.repetition.name
  sizeLimit : draft.sizeLimit = .null ∧ s.sizeLimit = none ∨
    ∃ limit, draft.sizeLimit.toInt = .ok limit ∧ s.sizeLimit = some limit
  timings : draft.timings.isTrue = s.timings
  iterationLimit : draft.iterationLimit.toInt = .ok s.iterationLimit
  tolerance : draft.tolerance.toDouble = .ok s.tolerance

theorem checkStrategy_eq_ok_iff {strategy : Strategy} :
    checkStrategy value = .ok strategy ↔ nameOf "loop" value = strategy.name := by
  rw [← Strategy.ofName?_eq_some_iff, checkStrategy]
  split
  case h_1 known => rw [known, Except.ok.injEq, Option.some.injEq]
  case h_2 unknown => simp [unknown]

theorem checkRepetition_eq_ok_iff {policy : RepetitionPolicy} :
    checkRepetition value = .ok policy ↔ nameOf "diagonal" value = policy.name := by
  rw [← RepetitionPolicy.ofName?_eq_some_iff, checkRepetition]
  split
  case h_1 known => rw [known, Except.ok.injEq, Option.some.injEq]
  case h_2 unknown => simp [unknown]

/-- What was read is given on unless it is out of bounds. -/
theorem guarded_eq_ok_iff {α β : Type} {read : Except Fault α} {refused : α → Prop}
    [DecidablePred refused] {fault : Fault} {given : α → β} {b : β} :
    (read >>= fun a => if refused a then .error fault else pure (given a)) = .ok b ↔
      ∃ a, read = .ok a ∧ ¬ refused a ∧ given a = b := by
  rw [bind_eq_ok_iff]
  refine exists_congr fun a => and_congr_right fun _ => ?_
  by_cases out : refused a <;> simp [out]

theorem checkSizeLimit_eq_ok_iff {limit : Option Int} :
    checkSizeLimit value = .ok limit ↔ (value = .null ∧ limit = none ∨
      ∃ n, value.toInt = .ok n ∧ limit = some n) ∧ ∀ n, limit = some n → 1 ≤ n := by
  by_cases unlimited : value = .null
  · subst unlimited
    simp only [checkSizeLimit, Literal.toInt, Except.ok.injEq, reduceCtorEq, false_and,
      exists_false, or_false, true_and]
    constructor
    · rintro rfl
      simp
    · rintro ⟨rfl, -⟩
      rfl
  · have checked : checkSizeLimit value = value.toInt >>= fun n =>
        if n ≤ 0 then .error (.value .sizeLimit) else pure (some n) := by
      cases value with
      | null => exact absurd rfl unlimited
      | _ => rfl
    rw [checked, guarded_eq_ok_iff]
    simp only [unlimited, false_and, false_or]
    constructor
    · rintro ⟨n, read, positive, rfl⟩
      refine ⟨⟨n, read, rfl⟩, fun m same => ?_⟩
      cases same
      omega
    · rintro ⟨⟨n, read, rfl⟩, positive⟩
      have := positive n rfl
      exact ⟨n, read, by omega, rfl⟩

theorem checkIterationLimit_eq_ok_iff {limit : Int} :
    checkIterationLimit value = .ok limit ↔ value.toInt = .ok limit ∧ 1 ≤ limit := by
  rw [checkIterationLimit, guarded_eq_ok_iff]
  constructor
  · rintro ⟨n, read, positive, rfl⟩
    exact ⟨read, by omega⟩
  · rintro ⟨read, positive⟩
    exact ⟨limit, read, by omega, rfl⟩

theorem checkTolerance_eq_ok_iff {tolerance : Float} :
    checkTolerance value = .ok tolerance ↔
      value.toDouble = .ok tolerance ∧ (0 ≤ tolerance ∨ tolerance.isNaN = true) := by
  have zero : Float.isNaN 0 = false := by decide
  have bound (x : Float) : ¬ x < 0 ↔ 0 ≤ x ∨ x.isNaN = true := by
    rw [Decimal.not_lt_iff, zero]
    simp
  rw [checkTolerance, guarded_eq_ok_iff]
  constructor
  · rintro ⟨x, read, within, rfl⟩
    exact ⟨read, (bound x).1 within⟩
  · rintro ⟨read, within⟩
    exact ⟨tolerance, read, (bound tolerance).2 within, rfl⟩

/-- A draft is accepted with the settings that follow it, as long as these are within their
bounds. -/
theorem normalize_eq_ok_iff : draft.normalize = .ok s ↔ draft.Follows s ∧ s.Usable := by
  simp only [normalize, bind_eq_ok_iff, checkStrategy_eq_ok_iff, checkRepetition_eq_ok_iff,
    checkSizeLimit_eq_ok_iff, checkIterationLimit_eq_ok_iff, checkTolerance_eq_ok_iff, pure_eq_ok,
    Except.ok.injEq]
  constructor
  · rintro ⟨strategy, named, repetition, named', sizeLimit, ⟨size, fits⟩, iterationLimit,
      ⟨iterations, positive⟩, tolerance, ⟨double, within⟩, rfl⟩
    exact ⟨⟨named, named', size, rfl, iterations, double⟩,
      ⟨strategy.name_eq, repetition.name_eq, fits, positive, within⟩⟩
  · rintro ⟨follows, usable⟩
    refine ⟨_, follows.strategy, _, follows.repetition, _, ⟨follows.sizeLimit, usable.sizeLimit⟩, _,
      ⟨follows.iterationLimit, usable.iterationLimit⟩, _, ⟨follows.tolerance, usable.tolerance⟩, ?_⟩
    rw [follows.timings]

theorem nameOf_strategy (strategy : Strategy) :
    nameOf "loop" (.text strategy.name) = strategy.name := by
  cases strategy <;> rfl

theorem nameOf_repetition (policy : RepetitionPolicy) :
    nameOf "diagonal" (.text policy.name) = policy.name := by
  cases policy <;> rfl

theorem follows_toDraft (s : Settings Float) : s.toDraft.Follows s where
  strategy := nameOf_strategy s.strategy
  repetition := nameOf_repetition s.repetition
  sizeLimit := by
    rw [Settings.toDraft]
    cases s.sizeLimit with
    | none => exact .inl ⟨rfl, rfl⟩
    | some limit => exact .inr ⟨limit, rfl, rfl⟩
  timings := rfl
  iterationLimit := rfl
  tolerance := rfl

end SettingsDraft

/-- Settings that were accepted say what their draft says, are within their bounds, and are accepted
as they are when they are written as a draft again. Their tolerance is at least zero unless it is
not a number. -/
theorem accepted_settings_usable (draft : SettingsDraft) (s : Settings Float)
    (accepted : draft.normalize = .ok s) :
    draft.Follows s ∧ s.Usable ∧ (0 ≤ s.tolerance ↔ s.tolerance.isNaN = false) ∧
      s.toDraft.normalize = .ok s := by
  obtain ⟨follows, usable⟩ := SettingsDraft.normalize_eq_ok_iff.1 accepted
  refine ⟨follows, usable, ?_,
    SettingsDraft.normalize_eq_ok_iff.2 ⟨SettingsDraft.follows_toDraft s, usable⟩⟩
  constructor
  · intro within
    by_contra nan
    exact Decimal.not_le_of_isNaN (.inr (eq_true_of_ne_false nan)) within
  · intro number
    exact usable.tolerance.resolve_right (ne_true_of_eq_false number)

/-- Names in capital letters, a numeral, a fraction and a truth value. -/
def mixedDraft : SettingsDraft :=
  { strategy := .text "NumPy", sizeLimit := .text " 12 ", iterationLimit := .real 2.5,
    tolerance := .bool true }

def mixedSettings : Settings Float :=
  { strategy := .bulk, sizeLimit := some 12, iterationLimit := 2, tolerance := 1 }

theorem accepted_settings_usable_mixed :
    mixedDraft.normalize = .ok mixedSettings ∧ mixedSettings.Usable ∧
      mixedSettings.toDraft.normalize = .ok mixedSettings := by
  have accepted : mixedDraft.normalize = .ok mixedSettings := by decide +kernel
  obtain ⟨-, usable, -, again⟩ := accepted_settings_usable mixedDraft mixedSettings accepted
  exact ⟨accepted, usable, again⟩

/-- A tolerance that is not a number is accepted, although it is not at least zero. -/
theorem tolerance_nan_accepted :
    ∃ s, SettingsDraft.normalize { tolerance := .text "nan" } = .ok s ∧ ¬ 0 ≤ s.tolerance := by
  refine ⟨_, rfl, ?_⟩
  decide +kernel

end TensorCalculus
