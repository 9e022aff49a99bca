import TensorCalculus.Bulk.Run
import TensorCalculus.Proofs.Closure.Joins
import TensorCalculus.Proofs.Closure.Walks
import TensorCalculus.Proofs.Contraction.Positivity
import TensorCalculus.Proofs.Fixpoint.Search

/-!
# Reachability

Each round of the closure adds the pairs that are joined by one more step. The rounds therefore
count the steps of walks. A change below one cannot hide a new pair, so the search stops only when
the relation is transitive, and it comes to that within as many rounds as there are values. -/

namespace TensorCalculus.Closure

open TensorCalculus.Layout TensorCalculus.Outcome

/-- One for a positive number, zero for all others. -/
def digit (x : ℚ) : ℚ :=
  if 0 < x then 1 else 0

theorem digit_eq_zero_or_one (x : ℚ) : digit x = 0 ∨ digit x = 1 := by
  unfold digit
  split
  · exact .inr rfl
  · exact .inl rfl

theorem digit_nonneg (x : ℚ) : 0 ≤ digit x := by
  rcases digit_eq_zero_or_one x with zero | one
  · exact zero.ge
  · rw [one]
    exact zero_le_one

@[simp]
theorem digit_pos_iff {x : ℚ} : 0 < digit x ↔ 0 < x := by
  unfold digit
  split
  case isTrue positive => simp [positive]
  case isFalse others => simp [others]

section Round

variable {settings : Settings ℚ} {relation current : Tensor ℚ} {n : Nat}

theorem entry_threshold {t : Tensor ℚ} {coords : List Nat} (inside : InRange t.shape coords) :
    (t.threshold 0).entry coords = digit (t.entry coords) :=
  Tensor.entry_map _ inside

/-- One round of the closure in terms of entries. -/
theorem exists_reach [BulkRoutine ℚ] (loop : settings.strategy = .loop)
    (square : relation.shape = [n, n]) (same : current.shape = [n, n]) :
    ∃ t, reach settings relation current = (admitsJoin settings n >>= fun _ => .ok t) ∧
      t.Alike current ∧ ∀ x z, x < n → z < n →
        t.entry [x, z] = digit (current.entry [x, z] +
          digit (∑ y ∈ Finset.range n, current.entry [x, y] * relation.entry [y, z])) := by
  obtain ⟨t, joined, shape, entries⟩ := exists_product runReal_evaluates settings square same
  have shapes : current.shape = (t.threshold 0).shape := same.trans shape.symm
  refine ⟨(current.zipWith (· + ·) (t.threshold 0) shapes).threshold 0, ?_,
    ⟨rfl, rfl, rfl⟩, fun x z hx hz => ?_⟩
  · rw [reach, einsum_eq_contractWith loop, joined]
    cases admitsJoin settings n with
    | error fault => rfl
    | ok =>
      rw [ok_bind, ok_bind, Tensor.add_pair shapes]
      rfl
  · have inside : InRange [n, n] [x, z] := ⟨hx, hz, trivial⟩
    have here : InRange current.shape [x, z] := same ▸ inside
    have summed : InRange (current.zipWith (· + ·) (t.threshold 0) shapes).shape [x, z] := here
    rw [entry_threshold summed, Tensor.entry_zipWith _ shapes here,
      entry_threshold (shape ▸ inside), entries x z hx hz]
    rfl

end Round

/-- A positive entry relates the value of its row to that of its column. -/
def edge (relation : Tensor ℚ) (x z : Nat) : Prop :=
  0 < relation.entry [x, z]

/-- Whether a square matrix consists of zeros and ones, the ones standing where a relation holds. -/
def Indicates (t : Tensor ℚ) (n : Nat) (related : Nat → Nat → Prop) : Prop :=
  t.shape = [n, n] ∧ ∀ x z, x < n → z < n →
    (t.entry [x, z] = 0 ∨ t.entry [x, z] = 1) ∧ (t.entry [x, z] = 1 ↔ related x z)

/-- What the rounds keep up: the positive entries are those that walks with a limited number of
steps lead to. -/
structure Supports (t : Tensor ℚ) (n : Nat) (related : Nat → Nat → Prop) : Prop where
  shape_eq : t.shape = [n, n]
  nonnegative : ∀ x z, x < n → z < n → 0 ≤ t.entry [x, z]
  positive_iff : ∀ x z, x < n → z < n → (0 < t.entry [x, z] ↔ related x z)

theorem Supports.indicates {t : Tensor ℚ} {n : Nat} {related : Nat → Nat → Prop}
    (supports : Supports t n related)
    (digits : ∀ x z, x < n → z < n → t.entry [x, z] = 0 ∨ t.entry [x, z] = 1) :
    Indicates t n related := by
  refine ⟨supports.shape_eq, fun x z hx hz => ⟨digits x z hx hz, ?_⟩⟩
  rw [← supports.positive_iff x z hx hz]
  rcases digits x z hx hz with zero | one
  · simp [zero]
  · simp [one]

section Rounds

variable {settings : Settings ℚ} {relation current : Tensor ℚ} {n k : Nat}

theorem edge_lt (square : relation.shape = [n, n]) {x z : Nat} (related : edge relation x z) :
    x < n ∧ z < n := by
  have inside := Tensor.inRange_of_entry_ne_zero (ne_of_gt related)
  rw [square] at inside
  exact ⟨inside.1, inside.2.1⟩

theorem joined_lt (square : relation.shape = [n, n]) {x z : Nat}
    (joined : Joined (edge relation) k x z) : x < n ∧ z < n := by
  obtain ⟨l, -, -, walk⟩ := joined
  obtain ⟨y, first⟩ := walk.exists_first
  obtain ⟨y', last⟩ := walk.exists_last
  exact ⟨(edge_lt square first).1, (edge_lt square last).2⟩

theorem supports_start (square : relation.shape = [n, n])
    (nonnegative : ∀ x z, x < n → z < n → 0 ≤ relation.entry [x, z]) :
    Supports relation n (Joined (edge relation) 1) := by
  refine ⟨square, nonnegative, fun x z _ _ => ?_⟩
  rw [joined_succ_iff]
  simp [not_joined_zero, edge]

theorem sum_mul_pos_iff_of_nonneg {f g : Nat → ℚ} (hf : ∀ y < n, 0 ≤ f y) (hg : ∀ y < n, 0 ≤ g y) :
    0 < ∑ y ∈ Finset.range n, f y * g y ↔ ∃ y < n, 0 < f y ∧ 0 < g y := by
  have terms : ∀ y < n, 0 ≤ f y * g y := fun y hy => mul_nonneg (hf y hy) (hg y hy)
  rw [(Positivity.nonnegative.sum_range terms).2]
  exact exists_congr fun y => and_congr_right fun hy =>
    Positivity.nonnegative.positive_mul_iff (hf y hy) (hg y hy)

/-- The join is positive where one further step leads. -/
theorem Supports.sum_pos_iff (supports : Supports current n (Joined (edge relation) k))
    (square : relation.shape = [n, n])
    (nonnegative : ∀ x z, x < n → z < n → 0 ≤ relation.entry [x, z]) {x z : Nat}
    (hx : x < n) (hz : z < n) : 0 < ∑ y ∈ Finset.range n,
      current.entry [x, y] * relation.entry [y, z] ↔
      ∃ y, Joined (edge relation) k x y ∧ edge relation y z := by
  rw [sum_mul_pos_iff_of_nonneg (fun y hy => supports.nonnegative x y hx hy) fun y hy =>
    nonnegative y z hy hz]
  constructor
  · rintro ⟨y, hy, here, further⟩
    exact ⟨y, (supports.positive_iff x y hx hy).1 here, further⟩
  · rintro ⟨y, joined, related⟩
    have hy := (edge_lt square related).1
    exact ⟨y, hy, (supports.positive_iff x y hx hy).2 joined, related⟩

theorem add_digit_pos_iff {a : ℚ} (ha : 0 ≤ a) (b : ℚ) : 0 < a + digit b ↔ 0 < a ∨ 0 < b := by
  have := digit_nonneg b
  constructor
  · intro positive
    by_contra neither
    rw [not_or, ← digit_pos_iff (x := b)] at neither
    linarith [not_lt.1 neither.1, not_lt.1 neither.2]
  · rintro (left | right)
    · linarith
    · have := digit_pos_iff.2 right
      linarith

/-- A round adds the pairs that one more step joins, and leaves zeros and ones only. -/
theorem exists_reach_supports [BulkRoutine ℚ] (loop : settings.strategy = .loop)
    (unlimited : settings.sizeLimit = none) (square : relation.shape = [n, n])
    (nonnegative : ∀ x z, x < n → z < n → 0 ≤ relation.entry [x, z])
    (supports : Supports current n (Joined (edge relation) (k + 1))) :
    ∃ t, reach settings relation current = .ok t ∧
      Supports t n (Joined (edge relation) (k + 1 + 1)) ∧
      ∀ x z, x < n → z < n → t.entry [x, z] = 0 ∨ t.entry [x, z] = 1 := by
  obtain ⟨t, reached, alike, entries⟩ := exists_reach loop square supports.shape_eq
  rw [admitsJoin_of_unlimited unlimited, ok_bind] at reached
  have shape : t.shape = [n, n] := alike.shape_eq.trans supports.shape_eq
  refine ⟨t, reached, ⟨shape, fun x z hx hz => ?_, fun x z hx hz => ?_⟩, fun x z hx hz => ?_⟩
  · rw [entries x z hx hz]
    exact digit_nonneg _
  · rw [entries x z hx hz, digit_pos_iff, add_digit_pos_iff (supports.nonnegative x z hx hz),
      supports.positive_iff x z hx hz, supports.sum_pos_iff square nonnegative hx hz,
      joined_succ_iff (k := k + 1)]
    refine ⟨Or.inr, ?_⟩
    rintro (here | further)
    · exact .inl ⟨1, le_rfl, Nat.le_add_left 1 k, .step here⟩
    · exact further
  · rw [entries x z hx hz]
    exact digit_eq_zero_or_one _

/-- The tensor after a number of rounds. -/
def rounds [BulkRoutine ℚ] (settings : Settings ℚ) (relation : Tensor ℚ) :
    Nat → Except Fault (Tensor ℚ)
  | 0 => .ok relation
  | k + 1 => do reach settings relation (← rounds settings relation k)

/-- After every number of rounds the positive entries are where walks lead that are at most one step
longer. -/
theorem exists_rounds [BulkRoutine ℚ] (loop : settings.strategy = .loop)
    (unlimited : settings.sizeLimit = none) (square : relation.shape = [n, n])
    (nonnegative : ∀ x z, x < n → z < n → 0 ≤ relation.entry [x, z]) (k : Nat) :
    ∃ t, rounds settings relation k = .ok t ∧ Supports t n (Joined (edge relation) (k + 1)) ∧
      (1 ≤ k → ∀ x z, x < n → z < n → t.entry [x, z] = 0 ∨ t.entry [x, z] = 1) := by
  induction k with
  | zero =>
    exact ⟨relation, rfl, supports_start square nonnegative, fun empty => absurd empty (by decide)⟩
  | succ k ih =>
    obtain ⟨current, before, supports, -⟩ := ih
    obtain ⟨t, reached, after, digits⟩ :=
      exists_reach_supports loop unlimited square nonnegative supports
    refine ⟨t, ?_, after, fun _ => digits⟩
    rw [rounds, before, ok_bind, reached]

/-- A change below one hides no new pair, as a new pair takes an entry from zero to one. -/
theorem closed_of_small_change {s t : Tensor ℚ} {tolerance : ℚ} (strict : tolerance < 1)
    (square : relation.shape = [n, n]) (before : Supports s n (Joined (edge relation) (k + 1)))
    (after : Indicates t n (Joined (edge relation) (k + 1 + 1)))
    (small : ∀ c, InRange s.shape c → |t.entry c - s.entry c| ≤ tolerance) {x z : Nat}
    (joined : Joined (edge relation) (k + 1 + 1) x z) : Joined (edge relation) (k + 1) x z := by
  by_contra fresh
  obtain ⟨hx, hz⟩ := joined_lt square joined
  have old : s.entry [x, z] = 0 := by
    refine le_antisymm (not_lt.1 fun positive => ?_) (before.nonnegative x z hx hz)
    exact fresh ((before.positive_iff x z hx hz).1 positive)
  have new : t.entry [x, z] = 1 := (after.2 x z hx hz).2.2 joined
  have moved := small [x, z] (before.shape_eq ▸ ⟨hx, hz, trivial⟩)
  rw [old, new, sub_zero, abs_one] at moved
  exact absurd strict (not_lt.2 moved)

/-- A search that stops at a small change has found all walks. -/
theorem indicates_transGen_of_small_change {s t : Tensor ℚ} {tolerance : ℚ} (strict : tolerance < 1)
    (square : relation.shape = [n, n]) (before : Supports s n (Joined (edge relation) (k + 1)))
    (after : Indicates t n (Joined (edge relation) (k + 1 + 1)))
    (small : ∀ c, InRange s.shape c → |t.entry c - s.entry c| ≤ tolerance) :
    Indicates t n (Relation.TransGen (edge relation)) := by
  have closed (x z : Nat) : Joined (edge relation) (k + 1 + 1) x z →
      Joined (edge relation) (k + 1) x z :=
    closed_of_small_change strict square before after small
  refine ⟨after.1, fun x z hx hz => ?_⟩
  obtain ⟨digits, one⟩ := after.2 x z hx hz
  refine ⟨digits, ?_⟩
  rw [one, transGen_iff_joined closed]
  exact ⟨closed x z, fun joined => joined.mono (Nat.le_succ (k + 1))⟩

/-- After as many rounds as there are values, nothing changes any more. -/
theorem entry_eq_of_many_rounds {s t : Tensor ℚ} (square : relation.shape = [n, n])
    (shape : s.shape = [n, n]) (before : 1 ≤ n → Indicates s n (Joined (edge relation) (n + 1)))
    (after : Indicates t n (Joined (edge relation) (n + 1 + 1))) {c : List Nat}
      (inside : InRange s.shape c) :
    t.entry c = s.entry c := by
  rw [shape] at inside
  obtain ⟨x, z, rfl, hx, hz⟩ := exists_pair_of_inRange inside
  have within : ∀ y z, edge relation y z → z < n := fun _ _ related => (edge_lt square related).2
  obtain ⟨old, one⟩ := (before (Nat.one_le_of_lt hx)).2 x z hx hz
  obtain ⟨new, one'⟩ := after.2 x z hx hz
  have same : t.entry [x, z] = 1 ↔ s.entry [x, z] = 1 := by
    rw [one, one']
    constructor
    · exact fun joined => (joined_of_joined within joined).mono (Nat.le_succ n)
    · exact fun joined => joined.mono (Nat.le_succ (n + 1))
  rcases new with absent | present
  · rcases old with absent' | present'
    · rw [absent, absent']
    · rw [present', same.2 present']
  · rw [present, same.1 present]

end Rounds

/-- What reachability computes. After every number of rounds the relation holds between values that
a walk joins which is at most one step longer than that number. A search that converges has found
the transitive closure, and with a limit beyond the number of values it always converges. -/
theorem transitive_reaches_closure [BulkRoutine ℚ] {settings : Settings ℚ} {relation : Tensor ℚ}
    {n : Nat} (loop : settings.strategy = .loop) (unlimited : settings.sizeLimit = none)
    (limited : 0 < settings.iterationLimit)
    (tolerant : 0 ≤ settings.tolerance) (strict : settings.tolerance < 1)
    (square : relation.shape = [n, n])
    (nonnegative : ∀ x z, x < n → z < n → 0 ≤ relation.entry [x, z]) :
    (∀ k,
      1 ≤ k →
        ∃ t, rounds settings relation k = .ok t ∧ Indicates t n (Joined (edge relation) (k + 1))) ∧
      ∃ outcome, transitive (.ok settings) (.real relation) = .ok outcome ∧ 1 ≤ outcome.iterations ∧
        outcome.iterations ≤ settings.iterationLimit ∧
        rounds settings relation outcome.iterations.toNat = .ok outcome.value ∧
        (outcome.converged → Indicates outcome.value n (Relation.TransGen (edge relation))) ∧
        (n + 1 ≤ settings.iterationLimit → outcome.converged) := by
  choose states reached supports digits using exists_rounds loop unlimited square nonnegative
  have indicates (k : Nat) (later : 1 ≤ k) :
      Indicates (states k) n (Joined (edge relation) (k + 1)) :=
    (supports k).indicates (digits k later)
  refine ⟨fun k later => ⟨states k, reached k, indicates k later⟩, ?_⟩
  choose moves measured bounds using fun k => Fixpoint.exists_maxChange
    ((supports k).shape_eq.trans (supports (k + 1)).shape_eq.symm)
  have updates (k : Nat) : reach settings relation (states k) = .ok (states (k + 1)) := by
    have next := reached (k + 1)
    rwa [rounds, reached k, ok_bind] at next
  have decides (k : Nat) :
      (Fixpoint.maxChange (states k) (states (k + 1)) >>= Fixpoint.within settings.tolerance) =
      .ok (decide (moves k ≤ settings.tolerance)) := by
    rw [measured k, ok_bind]
    rfl
  have start : states 0 = relation := Except.ok.inj (reached 0).symm
  have search :
      transitive (.ok settings) (.real relation) = Fixpoint.searchFrom (reach settings relation)
      Fixpoint.maxChange (Fixpoint.within settings.tolerance) settings.iterationLimit
        settings.iterationLimit.toNat 0
      (states 0) := by
    rw [transitive, expectSquare_of_shape _ square, ok_bind, ok_bind, start]
    rfl
  rw [search]
  rcases Fixpoint.searchFrom_cases updates decides settings.iterationLimit
    settings.iterationLimit.toNat 0 with
    ⟨j, -, before, -, calm, ended⟩ | ⟨never, ended⟩
  · have positive : (1 : Int) ≤ (j + 1 : Nat) := by omega
    have inLimit : ((j + 1 : Nat) : Int) ≤ settings.iterationLimit := by omega
    refine ⟨_, ended, positive, inLimit, reached (j + 1), fun _ => ?_, fun _ => rfl⟩
    have small := (bounds j _ tolerant).1 (of_decide_eq_true calm)
    exact indicates_transGen_of_small_change strict square (supports j)
      (indicates (j + 1) (Nat.le_add_left 1 j)) small
  · refine ⟨_, ended, limited, le_rfl, ?_, nofun, fun enough => ?_⟩
    · rw [Nat.zero_add]
      exact reached _
    · refine absurd (decide_eq_true ((bounds n _ tolerant).2 fun c inside => ?_))
        (never n (Nat.zero_le n) (by omega))
      have same := entry_eq_of_many_rounds square (supports n).shape_eq (indicates n)
        (indicates (n + 1) (Nat.le_add_left 1 n)) inside
      rw [same, sub_self, abs_zero]
      exact tolerant

attribute [local instance] Bulk.routine

/-- Two steps, from the first of three values to the second and on to the third. -/
def twoSteps : Tensor ℚ := ⟨"steps", ["x", "y"], [3, 3], #[0, 2, 0, 0, 0, 1 / 3, 0, 0, 0], rfl, rfl⟩

theorem transitive_reaches_closure_twoSteps :
    (∀ x z, x < 3 → z < 3 → 0 ≤ twoSteps.entry [x, z]) ∧
      ∃ outcome, transitive (.ok { tolerance := 1 / 2 : Settings ℚ }) (.real twoSteps) =
        .ok outcome ∧
        outcome.converged ∧ Indicates outcome.value 3 (Relation.TransGen (edge twoSteps)) := by
  have entries : ∀ x < 3, ∀ z < 3, 0 ≤ twoSteps.entry [x, z] := by decide +kernel
  have nonnegative (x z : Nat) (hx : x < 3) (hz : z < 3) : 0 ≤ twoSteps.entry [x, z] :=
    entries x hx z hz
  have tolerant : (0 : ℚ) ≤ 1 / 2 := by norm_num
  have strict : (1 / 2 : ℚ) < 1 := by norm_num
  obtain ⟨-, outcome, found, -, -, -, closure, converges⟩ :=
    @transitive_reaches_closure _ { tolerance := 1 / 2 } twoSteps 3 rfl rfl (by decide) tolerant
      strict rfl nonnegative
  have converged := converges (by decide)
  exact ⟨nonnegative, outcome, found, converged, closure converged⟩

end TensorCalculus.Closure
