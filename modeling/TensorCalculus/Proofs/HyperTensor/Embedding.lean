import TensorCalculus.Bulk.Run
import TensorCalculus.Proofs.Contraction.Simulation
import TensorCalculus.Proofs.HyperTensor.Evaluation

/-!
# Real contractions inside hypercomplex ones

In every algebra of the tower the numbers with zeros behind their first component add and multiply
like these components. So the hypercomplex loop over embedded real tensors follows the real loop
step by step, and its result is the embedded real result. The two loops begin their products
differently, the real one with one. -/

namespace TensorCalculus

-- Powers of natural numbers are those of `Nat.pow`, as in the definitions.
attribute [local instance (2000)] instPowNat

open TensorCalculus.Layout TensorCalculus.Outcome TensorCalculus.Text

variable {R τ : Type} [CommRing R] {k : Nat} {tag : AlgebraTag}
  (dimension : tag.dimension = (2 ^ k : Nat))

namespace Number

/-- The number of an algebra with a given first component and zeros behind it. -/
def ofScalar (r : R) : Number R :=
  ofTower tag dimension (.ofScalar k r)

theorem unit_eq_ofScalar (bytes : elementBytes * 2 ^ k ≤ wordLimit) (r : R) :
    unit tag r = .ok (ofScalar dimension r) :=
  unit_eq_ofTower dimension bytes r

theorem components_ofScalar (r : R) :
    (ofScalar dimension r).components = r :: List.replicate (2 ^ k - 1) 0 :=
  Tower.toList_ofScalar r

theorem real_ofScalar (r : R) : (ofScalar dimension r).real = .ok r := by
  rw [real, components_ofScalar]

theorem ofScalar_add (r s : R) :
    (ofScalar dimension r).add (ofScalar dimension s) = .ok (ofScalar dimension (r + s)) := by
  rw [ofScalar, ofTower_add dimension _ rfl, ofScalar, value_ofTower, ← Tower.ofScalar_add,
    ofScalar]

theorem ofScalar_mul (r s : R) :
    (ofScalar dimension r).mul (ofScalar dimension s) = .ok (ofScalar dimension (r * s)) := by
  have size : (ofScalar dimension r).components.length = 2 ^ k := length_of_algebra_eq rfl dimension
  have product : (ofScalar dimension r).value k * (ofScalar dimension s).value k =
      .ofScalar k (r * s) := by
    rw [ofScalar, ofScalar, value_ofTower, value_ofTower, Tower.ofScalar_mul, Tower.smul_ofScalar]
  rw [mul_eq_holding_value (y := ofScalar dimension s) size rfl, product]
  rfl

theorem foldlM_mul_ofScalar (r : R) (rs : List R) :
    (rs.map (ofScalar dimension)).foldlM mul (ofScalar dimension r) = .ok
      (ofScalar dimension (rs.foldl (· * ·) r)) := by
  induction rs generalizing r with
  | nil => rfl
  | cons s rs ih => rw [List.map_cons, List.foldlM_cons, ofScalar_mul, ok_bind, ih, List.foldl_cons]

end Number

/-- Sums of products of embedded numbers are the embedded sums of products. -/
theorem Backend.hyper_follows_real :
    (Backend.hyper (.ofScalar dimension (0 : R))).Follows .real (.ofScalar dimension)
      fun c => .ok (.ofScalar dimension c) where
  blank_eq := rfl
  accumulate_eq c values nonempty := by
    obtain ⟨r, rs, rfl⟩ := List.exists_cons_of_ne_nil nonempty
    have combined :
        (Backend.hyper (.ofScalar dimension (0 : R))).combine
          ((r :: rs).map (.ofScalar dimension)) =
        .ok (.ofScalar dimension (Backend.real.combine (r :: rs))) := by
      change List.foldlM Number.mul (.ofScalar dimension r) (rs.map (.ofScalar dimension)) =
        .ok (.ofScalar dimension (rs.foldl (· * ·) (1 * r)))
      rw [Number.foldlM_mul_ofScalar, one_mul]
    rw [combined]
    exact Number.ofScalar_add dimension c _

namespace HyperTensor

/-- A real tensor seen as a tensor of an algebra. -/
def embed (t : Tensor R) : HyperTensor R where
  toTensor := t.map (.ofScalar dimension)
  algebra := tag
  tagged x hx := by
    obtain ⟨r, -, rfl⟩ := Array.mem_map.1 hx
    rfl

theorem make_embed (t : Tensor R) :
    make t.name t.indices t.dims ((t.data.map (.ofScalar dimension)).toList.map .number) tag =
      .ok (embed dimension t) :=
  make_eq t.name t.length_indices (embed dimension t).size_data (embed dimension t).tagged

theorem ofReal_eq_embed (bytes : elementBytes * 2 ^ k ≤ wordLimit) (t : Tensor R) :
    ofReal t tag = .ok (embed dimension t) := by
  have terms : (t.data.toList.mapM fun x => do return Term.number (← Number.unit tag x)) =
      .ok ((t.data.map (.ofScalar dimension)).toList.map .number) := by
    rw [mapM_eq_ok_iff, Array.toList_map, List.forall₂_map_right_iff, List.forall₂_map_right_iff]
    apply List.forall₂_same.2
    intro r _
    rw [Number.unit_eq_ofScalar dimension bytes]
    rfl
  rw [ofReal, terms, ok_bind]
  exact make_embed dimension t

theorem realParts_embed (t : Tensor R) : (embed dimension t).realParts = .ok t := by
  have parts : (t.data.map (Number.ofScalar dimension)).toList.mapM Number.real =
      .ok t.data.toList := by
    rw [mapM_eq_ok_iff, Array.toList_map, List.forall₂_map_left_iff]
    exact List.forall₂_same.2 fun r _ => Number.real_ofScalar dimension r
  rw [realParts]
  change (t.data.map (Number.ofScalar dimension)).toList.mapM Number.real >>= _ = _
  rw [parts, ok_bind]
  exact Tensor.make_eq t.name t.length_indices t.size_data

end HyperTensor

open HyperTensor

/-- A sound plan gives the embedded result for embedded operands, and fails where it fails for the
operands. -/
theorem Plan.Sound.runHyper_embed [BulkRoutine R] {p : Plan} (sound : p.Sound)
    (operands : p.subscripts.inputs ≠ []) (bytes : elementBytes * 2 ^ k ≤ wordLimit)
    {tensors : List (Tensor R)} (nonempty : tensors ≠ []) (name : Option String) :
    p.runHyper tag (tensors.map (embed dimension)) name =
      embed dimension <$> p.runReal tensors .loop name := by
  have buffers : (tensors.map (embed dimension)).map (·.data) =
      (tensors.map (·.data)).map (·.map (Number.ofScalar dimension)) := by
    rw [List.map_map, List.map_map]
    rfl
  have followed := Contraction.run_map (Backend.hyper_follows_real dimension)
    (mt List.map_eq_nil_iff.1 nonempty : tensors.map (·.data) ≠ []) sound operands
  rw [runHyper, Number.unit_eq_ofScalar dimension bytes, ok_bind, buffers, followed, runReal]
  cases p.checkOutput with
  | error fault => rfl
  | ok checked =>
    simp only [ok_bind]
    cases ran : Contraction.run .real p (tensors.map (·.data)) with
    | error fault => rfl
    | ok data =>
      have filled : data.size = volume (p.subscripts.output.map p.extent) := by
        rw [Contraction.size_run ran, sound.outputSize_eq, Int.toNat_natCast]
      have numbers : (data.map fun c => .ok (Number.ofScalar dimension c)).toList.mapM id =
          (.ok (data.map (Number.ofScalar dimension)).toList : Except Fault (List (Number R))) := by
        rw [← mapM_id_ok, Array.toList_map, Array.toList_map, List.map_map]
        rfl
      rw [Except.map_ok, ok_bind, ok_bind, numbers, ok_bind, sound.outputShape_eq,
        Tensor.make_eq (resultName name) p.length_outputNames filled, Except.map_ok]
      exact make_embed dimension ⟨resultName name, p.outputNames, _, data, p.length_outputNames,
        filled⟩

/-- A hypercomplex contraction of embedded tensors gives the embedded real contraction, and fails
where this fails. -/
theorem hyperEinsum_embed [BulkRoutine R] {settings : Settings τ} (loop : settings.strategy = .loop)
    (bytes : elementBytes * 2 ^ k ≤ wordLimit) (wording : Wording) {tensors : List (Tensor R)}
    (nonempty : tensors ≠ []) (name : Option String) :
    hyperEinsum (.ok settings) wording ((tensors.map (embed dimension)).map .hyper) name =
      embed dimension <$> einsum settings wording (tensors.map .real) name := by
  have inhabited : tensors.map (embed dimension) ≠ [] := mt List.map_eq_nil_iff.1 nonempty
  have tagged : ∀ t ∈ tensors.map (embed dimension), t.algebra = tag := by
    intro t ht
    obtain ⟨t, -, rfl⟩ := List.mem_map.1 ht
    rfl
  have shapes : (tensors.map (embed dimension)).map (·.toTensor.dims) =
      tensors.map Tensor.dims := by
    rw [List.map_map]
    rfl
  rw [hyperEinsum, einsum, HyperFactor.expectHypers_hyper inhabited tagged, Factor.expectReals_real,
    loop]
  simp only [ok_bind, shapes]
  cases planned : settings.planWording wording (tensors.map Tensor.dims) with
  | error fault => rfl
  | ok p =>
    obtain ⟨sound, explained⟩ := sound_of_planWording planned
    apply sound.runHyper_embed dimension _ bytes nonempty
    intro absent
    rw [absent, List.map_nil, List.map_eq_nil_iff] at explained
    exact nonempty explained

/-- In exact arithmetic the real contraction embeds in the contraction over every algebra of the
tower. What it gives for real tensors, with whatever wording and output, is what the embedded
tensors give: the first components are its elements and all others vanish. Zeros for all components
of a number must be such that they can be laid out. -/
theorem einsum_embeds_in_hyperEinsum (R : Type) [CommRing R] [BulkRoutine R] (k : Nat)
    (bytes : elementBytes * 2 ^ k ≤ wordLimit) :
    ∃ tag, AlgebraTag.ofDimension (2 ^ k : Nat) = .ok tag ∧ tag.dimension = (2 ^ k : Nat) ∧
      ∀ (settings : Settings τ) (wording : Wording) (tensors : List (Tensor R))
        (name : Option String) (t : Tensor R), settings.strategy = .loop → tensors ≠ [] →
          einsum settings wording (tensors.map .real) name = .ok t →
        ∃ (embedded : List (HyperTensor R)) (h : HyperTensor R),
          tensors.mapM (ofReal · tag) = .ok embedded ∧
          hyperEinsum (.ok settings) wording (embedded.map .hyper) name = .ok h ∧
          ofReal t tag = .ok h ∧ h.algebra = tag ∧ h.indices = t.indices ∧ h.shape = t.shape ∧
          h.realParts = .ok t ∧
          h.data.map (·.components) = t.data.map fun r => r :: List.replicate (2 ^ k - 1) 0 := by
  obtain ⟨tag, standard, dimension⟩ := AlgebraTag.exists_ofDimension bytes
  refine ⟨tag, standard, dimension, fun settings wording tensors name t loop nonempty contracted =>
    ?_⟩
  refine ⟨tensors.map (embed dimension), embed dimension t, ?_, ?_,
    ofReal_eq_embed dimension bytes t, rfl, rfl, rfl, realParts_embed dimension t, ?_⟩
  · rw [mapM_eq_ok_iff, List.forall₂_map_right_iff]
    exact List.forall₂_same.2 fun s _ => ofReal_eq_embed dimension bytes s
  · rw [hyperEinsum_embed dimension loop bytes wording nonempty, contracted, Except.map_ok]
  · change (t.data.map (Number.ofScalar dimension)).map (·.components) = _
    rw [Array.map_map]
    exact congrArg (t.data.map ·) (funext (Number.components_ofScalar dimension))

attribute [local instance] Bulk.routine

/-- No number at all, on one axis. -/
def nothing : Tensor ℚ := ⟨"nothing", ["nowhere"], [0], #[], rfl, by decide⟩

/-- Real contractions do not embed where an algebra has more components than zeros can be laid out
for: the embedded tensor is made, having no elements, but the zero that contractions begin with is
not. -/
theorem einsum_not_embedded_in_unaddressable :
    ∃ tag t embedded, AlgebraTag.ofDimension (2 ^ (60 : Nat) : Nat) = .ok tag ∧
      einsum { tolerance := 0 : Settings ℚ } (.understood { inputs := [['i']], output := ['i'] })
        [.real nothing] none = .ok t ∧
      ofReal nothing tag = .ok embedded ∧
      hyperEinsum (.ok { tolerance := 0 : Settings ℚ })
        (.understood { inputs := [['i']], output := ['i'] })
        [.hyper embedded] none = .error (.value .storageLimit) := by
  have room : 10 ^ (19 : Nat) ≤ 10 ^ digitLimit := Nat.pow_le_pow_right (by decide) (by decide)
  have standard := AlgebraTag.ofDimension_of_short (n := (2 ^ (60 : Nat) : Nat))
    (Nat.lt_of_lt_of_le (by decide +kernel) room)
  refine ⟨_, _, _, standard, rfl, rfl, rfl⟩

def mixingMatrix : Tensor ℚ := ⟨"mixing", ["mixture", "part"], [2, 2], #[1 / 2, -1, 3, 2], rfl, rfl⟩

def mixedVector : Tensor ℚ := ⟨"mixed", ["part"], [2], #[4, 1 / 3], rfl, rfl⟩

/-- A matrix of rational numbers times a vector, and the same over the quaternions. -/
theorem einsum_embeds_in_hyperEinsum_quaternions :
    ∃ t embedded h,
      einsum { tolerance := 0 : Settings ℚ }
        (.understood { inputs := [['i', 'j'], ['j']], output := ['i'] })
        ([mixingMatrix, mixedVector].map .real) none = .ok t ∧
      [mixingMatrix, mixedVector].mapM (ofReal · .quaternion) = .ok embedded ∧
      hyperEinsum (.ok { tolerance := 0 : Settings ℚ })
        (.understood { inputs := [['i', 'j'], ['j']], output := ['i'] })
        (embedded.map .hyper) none = .ok h ∧
      h.realParts = .ok t := by
  have room : 10 ^ (19 : Nat) ≤ 10 ^ digitLimit := Nat.pow_le_pow_right (by decide) (by decide)
  obtain ⟨tag, standard, -, embeds⟩ := einsum_embeds_in_hyperEinsum (τ := ℚ) ℚ 2 (by decide)
  rw [AlgebraTag.ofDimension_of_short (Nat.lt_of_lt_of_le (by decide +kernel) room)] at standard
  obtain rfl : AlgebraTag.quaternion = tag := Except.ok.inj standard
  have accepted : (einsum { tolerance := 0 : Settings ℚ }
      (.understood { inputs := [['i', 'j'], ['j']], output := ['i'] })
      ([mixingMatrix, mixedVector].map .real) none).toOption.isSome := by decide +kernel
  cases contracted : einsum { tolerance := 0 : Settings ℚ }
    (.understood { inputs := [['i', 'j'], ['j']], output := ['i'] })
    ([mixingMatrix, mixedVector].map .real) none with
  | error => rw [contracted] at accepted; cases accepted
  | ok t =>
    obtain ⟨embedded, h, lifted, found, -, -, -, -, parts, -⟩ :=
      embeds _ _ [mixingMatrix, mixedVector] none t rfl (List.cons_ne_nil _ _) contracted
    exact ⟨t, embedded, h, rfl, lifted, found, parts⟩

end TensorCalculus
