import TensorCalculus.Proofs.Contraction.Requests
import TensorCalculus.Proofs.SumProduct.Reals

/-!
# Sums that go through storage

The contraction loop keeps numbers in its cells: each of them is lifted before something is added to
it, and lowered afterwards. Lifting does not undo lowering on every carrier. It does on the sums
that a cell can hold, and that is enough: a cell comes to what it would hold if the whole sum were
taken in the carrier and lowered once at the end. -/

namespace TensorCalculus

open TensorCalculus.Layout TensorCalculus.Outcome

variable {σ τ : Type}

namespace SumProduct

/-- Whether a part of the carrier holds all sums, whatever is added, and storing its values loses
nothing. -/
structure Stores (s : SumProduct σ) (encode : s.Carrier → σ) (storable : s.Carrier → Prop) :
    Prop where
  zero : storable s.zero
  add : ∀ a b, storable a → storable (s.add a b)
  lower_eq : ∀ a, storable a → s.lower a = .ok (encode a)
  lift_encode : ∀ a, storable a → s.lift (encode a) = a

theorem Exact.stores {s : SumProduct σ} {encode : s.Carrier → σ} (exact : s.Exact encode) :
    s.Stores encode fun _ => True where
  zero := trivial
  add _ _ _ := trivial
  lower_eq a _ := exact.lower_eq a
  lift_encode a _ := exact.lift_encode a

/-- Clamped sums lie in the unit interval, where lifting changes nothing. -/
theorem probabilistic_stores : (probabilistic : SumProduct ℝ).Stores id fun a =>
    a ∈ Set.Icc (0 : ℝ) 1 where
  zero := ⟨le_rfl, zero_le_one⟩
  add _ _ _ := clampUnit_mem _
  lower_eq _ _ := rfl
  lift_encode _ inside := clampUnit_of_mem inside

theorem backend_combine (s : SumProduct σ) (values : List σ) :
    s.backend.combine values = s.product (values.map s.lift) :=
  List.foldl_map.symm

namespace Stores

variable {s : SumProduct σ} {encode : s.Carrier → σ} {storable : s.Carrier → Prop}
  (stores : s.Stores encode storable)
include stores

theorem storable_sum (xs : List s.Carrier) : storable (s.sum xs) := by
  suffices from_ : ∀ a, storable a → storable (xs.foldl s.add a) from from_ s.zero stores.zero
  induction xs with
  | nil => exact fun _ ha => ha
  | cons x xs ih => exact fun a ha => ih (s.add a x) (stores.add a x ha)

/-- One accumulation on a stored value. -/
theorem accumulate_lower {a : s.Carrier} (ha : storable a) (x : s.Carrier) :
    s.backend.accumulate (s.lower a) x = s.lower (s.add a x) := by
  change (s.lower a >>= fun cell => s.lower (s.add (s.lift cell) x)) = _
  rw [stores.lower_eq a ha, ok_bind, stores.lift_encode a ha]

/-- Many accumulations, from the blank cell on. -/
theorem foldl_accumulate (xs : List s.Carrier) :
    xs.foldl s.backend.accumulate s.backend.blank = s.lower (s.sum xs) := by
  suffices from_ :
      ∀ a, storable a → xs.foldl s.backend.accumulate (s.lower a) = s.lower (xs.foldl s.add a) from
    from_ s.zero stores.zero
  induction xs with
  | nil => exact fun _ _ => rfl
  | cons x xs ih =>
    intro a ha
    rw [List.foldl_cons, stores.accumulate_lower ha, ih (s.add a x) (stores.add a x ha),
      List.foldl_cons]

end Stores

end SumProduct

open SumProduct

/-- What is read under the assignments that lead to given output coordinates, one element of each
operand, in lexicographic order of the assignments. -/
def Plan.readings? (p : Plan) (tensors : List (Tensor σ)) (o : List Nat) : Option (List (List σ)) :=
  (p.agreeing o).mapM (p.elements? (tensors.map (·.shape)) (tensors.map (·.data)))

/-- Whether every contraction that is planned, with no symbol twice in its output, comes to a tensor
of the planned shape whose elements are given by what their assignments read. Only an output that no
list can hold keeps it from that. -/
def CellsAre (settings : Settings τ) (s : SumProduct σ) (cell : List (List σ) → Except Fault σ) :
    Prop :=
  ∀ (wording : Wording) (tensors : List (Tensor σ)) (p : Plan) (name : Option String),
    settings.planWording wording (tensors.map Tensor.dims) = .ok p → p.subscripts.output.Nodup →
    ∃ t, semiringEinsum settings s wording (tensors.map .real) name = (p.checkOutput >>= fun _ =>
      .ok t) ∧ t.dims = p.outputShape ∧ ∀ o, InRange t.shape o → ∃ readings x,
        p.readings? tensors o = some readings ∧ t.elem? o = some x ∧ cell readings = .ok x

theorem mapM_eq_some_map {α β : Type} {f : α → Option β} {g : α → β} {as : List α}
    (found : ∀ a ∈ as, f a = some (g a)) : as.mapM f = some (as.map g) := by
  induction as with
  | nil => rfl
  | cons a as ih =>
    rw [List.forall_mem_cons] at found
    rw [List.mapM_cons, found.1, ih found.2]
    rfl

theorem CellsAre.congr {settings : Settings τ} {s : SumProduct σ}
    {cell cell' : List (List σ) → Except Fault σ} (cells : CellsAre settings s cell)
    (same : ∀ readings, cell readings = cell' readings) : CellsAre settings s cell' :=
  funext same ▸ cells

theorem SumProduct.Stores.cellsAre {s : SumProduct σ} {encode : s.Carrier → σ}
    {storable : s.Carrier → Prop} (stores : s.Stores encode storable) (settings : Settings τ) :
    CellsAre settings s fun readings =>
      s.lower (s.sum (readings.map fun xs => s.product (xs.map s.lift))) := by
  intro wording tensors p name planned distinct
  obtain ⟨sound, explained⟩ := sound_of_planWording planned
  have filled : (tensors.map (·.data)).map Array.size = (tensors.map (·.shape)).map volume := by
    rw [List.map_map, List.map_map]
    exact List.map_congr_left fun t _ => t.size_data
  let elements (a : List Nat) :=
    (p.elements? (tensors.map (·.shape)) (tensors.map (·.data)) a).getD []
  have read (a : List Nat) (ha : a ∈ p.assignments) := Plan.gather_of_assignment ha explained filled
  have readings (o : List Nat) : p.readings? tensors o = some ((p.agreeing o).map elements) :=
    mapM_eq_some_map fun a ha => (read a (List.mem_of_mem_filter ha)).2
  let total (o : List Nat) :=
    s.sum (((p.agreeing o).map elements).map fun xs => s.product (xs.map s.lift))
  have lowered (o : List Nat) : s.lower (total o) = .ok (encode (total o)) :=
    stores.lower_eq _ (stores.storable_sum _)
  obtain ⟨out, ran, size, cells⟩ := sound.run_eq_cells distinct s.backend fun a ha => (read a ha).1
  have held (o : List Nat) (ho : InRange (p.subscripts.output.map p.extent) o) :
      out[offset (p.subscripts.output.map p.extent) o]? = some (.ok (encode (total o))) := by
    rw [cells o ho, ← lowered, ← stores.foldl_accumulate, List.foldl_map, List.foldl_map]
    simp only [backend_combine]
    rfl
  obtain ⟨data, rfl, filled', contents⟩ := Tensor.exists_data_of_cells size held
  obtain ⟨t, made, shape, same⟩ := Plan.make_output sound (resultName name) filled'
  refine ⟨t, ?_, ?_, fun o ho => ⟨_, encode (total o), readings o, ?_, lowered o⟩⟩
  · simp only [semiringEinsum, Factor.expectReals_real, ok_bind, planned, Plan.runSumProduct, ran,
      array_mapM_id_ok, made]
  · rw [sound.outputShape_eq, Tensor.dims, shape]
  · rw [← Tensor.getElem?_data_eq_elem? ho, shape, same]
    exact contents o (shape ▸ ho)

namespace Catalogue

theorem antilog_sum (xs : List (WithBot ℝ)) :
    antilog (xs.foldl greater ⊥) = (xs.map antilog).foldl max 0 := by
  suffices from_ :
    ∀ a, antilog (xs.foldl greater a) = (xs.map antilog).foldl max (antilog a) from from_ ⊥
  induction xs with
  | nil => exact fun _ => rfl
  | cons x xs ih =>
    intro a
    rw [List.foldl_cons, ih, greater_eq_max, antilog_strictMono.monotone.map_max, List.map_cons,
      List.foldl_cons]

theorem antilog_product (xs : List (WithBot ℝ)) :
    antilog (xs.foldl (· + ·) 0) = (xs.map antilog).prod := by
  suffices from_ : ∀ a, antilog (xs.foldl (· + ·) a) = antilog a * (xs.map antilog).prod by
    rw [from_, ← WithBot.coe_zero, antilog_coe, Real.exp_zero, one_mul]
  induction xs with
  | nil => exact fun a => (mul_one _).symm
  | cons x xs ih =>
    intro a
    rw [List.foldl_cons, ih, antilog_add, List.map_cons, List.prod_cons, mul_assoc]

/-- The logarithm of a number above zero, and bottom for all others. -/
noncomputable def logOf (x : ℝ) : WithBot ℝ :=
  if 0 < x then (Real.log x : ℝ) else ⊥

theorem antilog_logOf (x : ℝ) : antilog (logOf x) = max 0 x := by
  unfold logOf
  split
  case isTrue positive => rw [antilog_coe, Real.exp_log positive, max_eq_right positive.le]
  case isFalse others => exact (max_eq_left (not_lt.1 others)).symm

/-- The greatest product of the parts above zero, or zero if there is none. -/
noncomputable def bestProduct (readings : List (List ℝ)) : ℝ :=
  (readings.map fun xs => (xs.map (max 0)).prod).foldl max 0

theorem viterbi_lower_sum (readings : List (List ℝ)) :
    (SumProduct.viterbi realScale).lower ((SumProduct.viterbi realScale).sum
      (readings.map fun xs =>
        (SumProduct.viterbi realScale).product (xs.map (SumProduct.viterbi realScale).lift))) =
      .ok (bestProduct readings) := by
  rw [viterbi_exact.lower_eq]
  change Except.ok
    (antilog ((readings.map fun xs => (xs.map logOf).foldl (· + ·) 0).foldl greater ⊥)) = _
  simp only [antilog_sum, List.map_map, Function.comp_def, antilog_product, antilog_logOf,
    bestProduct]

/-- Storing the cells loses nothing. In exact arithmetic every contraction under a member of the
catalogue comes to the sums of products of its readings, taken in the carrier and lowered once. Best
probabilities are therefore the greatest products of the parts above zero. -/
theorem cells_lowered_once (settings : Settings τ) :
    (∀ c : Catalogue, CellsAre settings c.onReals fun readings =>
      c.onReals.lower
        (c.onReals.sum (readings.map fun xs => c.onReals.product (xs.map c.onReals.lift)))) ∧
    CellsAre settings viterbi.onReals fun readings => .ok (bestProduct readings) := by
  have each (c : Catalogue) : CellsAre settings c.onReals fun readings =>
      c.onReals.lower
        (c.onReals.sum (readings.map fun xs => c.onReals.product (xs.map c.onReals.lift))) := by
    cases c with
    | boolean => exact boolean_real_exact.stores.cellsAre settings
    | counting => exact (counting_exact (σ := ℝ)).stores.cellsAre settings
    | viterbi => exact viterbi_exact.stores.cellsAre settings
    | probabilistic => exact probabilistic_stores.cellsAre settings
    | minPlus => exact (minPlus_exact (K := ℝ)).stores.cellsAre settings
  exact ⟨each, (each viterbi).congr viterbi_lower_sum⟩

noncomputable def firstScores : Tensor ℝ := ⟨"first", ["i"], [2], #[1 / 2, -3], rfl, rfl⟩

noncomputable def secondScores : Tensor ℝ := ⟨"second", ["i"], [2], #[1 / 2, 4], rfl, rfl⟩

/-- The sum of the products of scores at the same place. -/
def pairing : Plan where
  subscripts := { inputs := [['i'], ['i']], output := [] }
  operandShapes := [[2], [2]]
  symbolSizes := [('i', 2)]

/-- The best of two pairs of scores, of which one holds a number below zero. -/
theorem cells_lowered_once_scores :
    ({ tolerance := 0 } : Settings ℚ).planWording (.understood pairing.subscripts)
        ([firstScores, secondScores].map Tensor.dims) = .ok pairing ∧
      pairing.subscripts.output.Nodup ∧
      ∃ t,
          semiringEinsum ({ tolerance := 0 } : Settings ℚ) viterbi.onReals
            (.understood pairing.subscripts)
          [.real firstScores, .real secondScores] none = .ok t ∧ t.elem? [] = some (1 / 4 : ℝ) := by
  have planned : ({ tolerance := 0 } : Settings ℚ).planWording (.understood pairing.subscripts)
      ([firstScores, secondScores].map Tensor.dims) = .ok pairing := rfl
  have distinct : pairing.subscripts.output.Nodup := by decide
  obtain ⟨t, contracted, shape, cells⟩ :=
    (cells_lowered_once ({ tolerance := 0 } : Settings ℚ)).2 _ [firstScores, secondScores] _ none
      planned distinct
  have scalar : t.shape = [] := List.map_eq_nil_iff.1 shape
  have origin : InRange t.shape [] := by
    rw [scalar]
    trivial
  obtain ⟨readings, x, read, found, best⟩ := cells [] origin
  have listed : pairing.readings? [firstScores, secondScores] [] = some [[1 / 2, 1 / 2], [-3, 4]] :=
    rfl
  obtain rfl : readings = ([[1 / 2, 1 / 2], [-3, 4]] : List (List ℝ)) :=
    Option.some.inj (read.symm.trans listed)
  obtain rfl : bestProduct [[1 / 2, 1 / 2], [-3, 4]] = x := Except.ok.inj best
  have value : bestProduct [[1 / 2, 1 / 2], [-3, 4]] = 1 / 4 := by
    norm_num [bestProduct]
  exact ⟨planned, distinct, t, contracted, found.trans (congrArg some value)⟩

end Catalogue

end TensorCalculus
