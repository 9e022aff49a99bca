import TensorCalculus.Einsum
import TensorCalculus.Proofs.Contraction.Sums
import TensorCalculus.Proofs.Tensor.Entries

/-!
# What a contraction denotes

Over a commutative semiring each entry of a contraction is the sum, over the values of the symbols
summed over, of the product of the entries of all operands. This holds of the real contraction, and
of the contraction under another sum and product whenever storing a value loses nothing. -/

namespace TensorCalculus

open TensorCalculus.Layout TensorCalculus.Outcome

variable {ε γ π ι K M : Type} [CommSemiring K] [AddCommMonoid M]

/-- An operand with the segment that names its axes. -/
abbrev Factor (ε : Type) := List Char × Tensor ε

namespace Factor

/-- The product of the entries that the factors have under given values of the symbols. -/
def product [Zero ε] (lift : ε → K) (factors : List (Factor ε)) (τ : Char → Nat) : K :=
  (factors.map fun factor => lift (factor.2.entry (factor.1.map τ))).prod

theorem product_cons [Zero ε] (lift : ε → K) (factor : Factor ε) (factors : List (Factor ε))
    (τ : Char → Nat) :
    product lift (factor :: factors) τ = lift (factor.2.entry (factor.1.map τ)) * product lift
      factors τ := by
  simp [product]

/-- Whether a symbol occurs in one of the factors. -/
def Occurs (factors : List (Factor ε)) (c : Char) : Prop :=
  ∃ factor ∈ factors, c ∈ factor.1

theorem dependsOn_product [Zero ε] (lift : ε → K) (factors : List (Factor ε)) :
    DependsOn (product lift factors) {c | Occurs factors c} := by
  intro σ τ agree
  refine congrArg List.prod (List.map_congr_left fun factor here => ?_)
  rw [List.map_congr_left fun c hc => agree c ⟨factor, here, hc⟩]

/-- Whether the sizes of the symbols explain the shapes of all factors. -/
def Sized (factors : List (Factor ε)) (extent : Char → Nat) : Prop :=
  ∀ factor ∈ factors, factor.2.shape = factor.1.map extent

end Factor

open Factor

/-- A backend that adds up the values which assignments have, its cells holding stored values. -/
structure Backend.Collects (backend : Backend ε γ π) (store : M → γ) (assignments : List ι)
    (values : ι → List ε) (value : ι → M) : Prop where
  blank_eq : backend.blank = store 0
  accumulate_eq : ∀ a ∈ assignments, ∀ k,
    backend.accumulate (store k) (backend.combine (values a)) = store (k + value a)

theorem Backend.Collects.mono {backend : Backend ε γ π} {store : M → γ} {these those : List ι}
    {values : ι → List ε} {value : ι → M} (collects : backend.Collects store those values value)
    (subset : ∀ a ∈ these, a ∈ those) :
    backend.Collects store these values value where
  blank_eq := collects.blank_eq
  accumulate_eq a ha := collects.accumulate_eq a (subset a ha)

theorem Backend.Collects.foldl_eq {backend : Backend ε γ π} {store : M → γ} {assignments : List ι}
    {values : ι → List ε} {value : ι → M}
    (collects : backend.Collects store assignments values value) :
    assignments.foldl (fun cell a => backend.accumulate cell (backend.combine (values a)))
      backend.blank = store (assignments.map value).sum := by
  rw [collects.blank_eq]
  suffices from_ : ∀ k, assignments.foldl
      (fun cell a => backend.accumulate cell (backend.combine (values a))) (store k) =
      store (k + (assignments.map value).sum) by
    rw [from_ 0, zero_add]
  have step := collects.accumulate_eq
  clear collects
  induction assignments with
  | nil => simp
  | cons a assignments ih =>
    intro k
    rw [List.foldl_cons, step a List.mem_cons_self,
      ih fun b hb => step b (List.mem_cons_of_mem a hb), List.map_cons, List.sum_cons, add_assoc]

/-- A backend that adds up products in a semiring. -/
structure Backend.Exact (backend : Backend ε γ K) (lift : ε → K) (store : K → γ) : Prop where
  blank_eq : backend.blank = store 0
  combine_eq : ∀ values, backend.combine values = (values.map lift).prod
  accumulate_eq : ∀ k x, backend.accumulate (store k) x = store (k + x)

theorem Backend.Exact.collects {backend : Backend ε γ K} {lift : ε → K} {store : K → γ}
    (exact : backend.Exact lift store) (assignments : List ι) (values : ι → List ε) :
    backend.Collects store assignments values fun a => ((values a).map lift).prod where
  blank_eq := exact.blank_eq
  accumulate_eq a _ k := by rw [exact.combine_eq, exact.accumulate_eq]

namespace Plan

variable {p : Plan} {factors : List (Factor ε)}

/-- What is read under an assignment, when every factor has an element at its place. -/
theorem gather_factors {a : List Nat} (element : Factor ε → ε)
    (found : ∀ factor ∈ factors, factor.2.data[p.placeOf a factor.1]? = some (element factor)) :
    Contraction.gather (factors.map (·.2.data)) ((factors.map (·.1)).map fun segment =>
      (p.placeOf a segment : Int)) = .ok (factors.map element) := by
  induction factors with
  | nil => rfl
  | cons factor factors ih =>
    have here := found factor List.mem_cons_self
    have rest := ih fun f hf => found f (List.mem_cons_of_mem factor hf)
    rw [List.map_cons, List.map_cons, List.map_cons, Contraction.gather,
      Contraction.readAt_natCast _ _ here, rest]
    rfl

/-- The sum over agreeing assignments is the sum over the values of the symbols that the output
leaves out. -/
theorem sum_agreeing_eq_sumOver (distinct : p.subscripts.output.Nodup)
    (known : ∀ c ∈ p.subscripts.output, c ∈ p.order) {o : List Nat}
    (ho : InRange (p.subscripts.output.map p.extent) o) {f : (Char → Nat) → M}
    (depends : DependsOn f {c | c ∈ p.order}) :
    ((p.agreeing o).map fun a => f (p.valueOf a)).sum =
      sumOver p.extent p.contracted f (Assignment.value p.subscripts.output o) := by
  have outputCount : o.length = p.subscripts.output.length := by simpa using ho.length_eq
  have same : p.agreeing o = (coordinatesFrom (p.order.map p.extent)).filter
      (Assignment.keeps p.subscripts.output (Assignment.value p.subscripts.output o) p.order) := by
    rw [agreeing, assignments, coordinates_eq_coordinatesFrom]
    apply List.filter_congr
    intro a ha
    have count : a.length = p.order.length := by simpa using (mem_coordinatesFrom.1 ha).length_eq
    rw [Bool.eq_iff_iff, decide_eq_true_iff, Assignment.keeps_iff nodup_order count]
    constructor
    · rintro rfl c - hc
      exact (Assignment.value_map (p.valueOf a) hc).symm
    · intro agree
      rw [← Assignment.map_value distinct outputCount]
      exact List.map_congr_left fun c hc => agree c (known c hc) hc
  rw [same]
  refine Eq.trans (congrArg List.sum (List.map_congr_left fun a ha => ?_))
    (Assignment.sum_keeping_eq_sumOver p.order p.subscripts.output nodup_order
      (fun c _ hc => Assignment.value_lt ho hc) f)
  have count : a.length = p.order.length := by
    simpa using (mem_coordinatesFrom.1 (List.mem_of_mem_filter ha)).length_eq
  exact depends fun c hc => (Assignment.overlay_eq_value nodup_order count _ hc).symm

theorem mem_order_of_occurs (segments : p.subscripts.inputs = factors.map (·.1)) {c : Char}
    (occurs : Occurs factors c) : c ∈ p.order := by
  obtain ⟨factor, hf, hc⟩ := occurs
  exact mem_order_of_mem_segment (segments ▸ List.mem_map_of_mem hf) hc

/-- An assignment leads every factor to coordinates of its shape. -/
theorem inRange_of_sized (segments : p.subscripts.inputs = factors.map (·.1))
    (sized : Sized factors p.extent) {a : List Nat} (ha : a ∈ p.assignments) {factor : Factor ε}
    (here : factor ∈ factors) :
    InRange factor.2.shape (p.coordsOf a factor.1) := by
  rw [sized factor here]
  exact inRange_coordsOf ha fun c hc => mem_order_of_occurs segments ⟨factor, here, hc⟩

/-- Under an assignment every factor is read at the coordinates of its segment. -/
theorem gather_entries [Zero ε] (segments : p.subscripts.inputs = factors.map (·.1))
    (sized : Sized factors p.extent) {a : List Nat} (ha : a ∈ p.assignments) :
    Contraction.gather (factors.map (·.2.data)) (p.subscripts.inputs.map fun segment =>
      (p.placeOf a segment : Int)) =
      .ok (factors.map fun factor => factor.2.entry (p.coordsOf a factor.1)) := by
  rw [segments]
  apply gather_factors fun factor => factor.2.entry (p.coordsOf a factor.1)
  intro factor here
  rw [placeOf, ← sized factor here]
  exact Tensor.getElem?_data_eq_entry (inRange_of_sized segments sized ha here)

namespace Sound

variable (sound : p.Sound) (distinct : p.subscripts.output.Nodup)
include sound distinct

/-- The cells of a contraction whose backend adds up the values of its assignments. -/
theorem run_eq_sumOver {backend : Backend ε γ π} {buffers : List (Array ε)}
    {values : List Nat → List ε} (reads : ∀ a ∈ p.assignments,
      Contraction.gather buffers (p.subscripts.inputs.map fun segment =>
        (p.placeOf a segment : Int)) = .ok (values a))
    {store : M → γ} {f : (Char → Nat) → M} (depends : DependsOn f {c | c ∈ p.order})
    (collects : backend.Collects store p.assignments values fun a => f (p.valueOf a)) :
    ∃ out, Contraction.run backend p buffers = .ok out ∧
      out.size = volume (p.subscripts.output.map p.extent) ∧
      ∀ o, InRange (p.subscripts.output.map p.extent) o →
        out[offset (p.subscripts.output.map p.extent) o]? = some (store
          (sumOver p.extent p.contracted f (Assignment.value p.subscripts.output o))) := by
  obtain ⟨out, ran, size, cells⟩ := sound.run_eq_cells distinct backend reads
  refine ⟨out, ran, size, fun o ho => ?_⟩
  have agreeing : backend.Collects store (p.agreeing o) values fun a => f (p.valueOf a) :=
    collects.mono fun a ha => List.mem_of_mem_filter ha
  rw [cells o ho, agreeing.foldl_eq,
    sum_agreeing_eq_sumOver distinct sound.mem_order_of_mem_output ho depends]

/-- The cells of a contraction in a semiring. -/
theorem run_eq_sumOver_product [Zero ε] (segments : p.subscripts.inputs = factors.map (·.1))
    (sized : Sized factors p.extent) {backend : Backend ε γ K} {lift : ε → K} {store : K → γ}
    (exact : backend.Exact lift store) :
    ∃ out, Contraction.run backend p (factors.map (·.2.data)) = .ok out ∧
      out.size = volume (p.subscripts.output.map p.extent) ∧
      ∀ o, InRange (p.subscripts.output.map p.extent) o →
        out[offset (p.subscripts.output.map p.extent) o]? = some (store
          (sumOver p.extent p.contracted (product lift factors)
            (Assignment.value p.subscripts.output o))) := by
  have depends : DependsOn (product lift factors) {c | c ∈ p.order} :=
    (dependsOn_product lift factors).mono fun c => mem_order_of_occurs segments
  have collects : backend.Collects store p.assignments
      (fun a => factors.map fun factor => factor.2.entry (p.coordsOf a factor.1))
      fun a => product lift factors (p.valueOf a) := by
    simpa only [List.map_map, Function.comp_def, product, coordsOf] using exact.collects
      p.assignments fun a => factors.map fun factor => factor.2.entry (p.coordsOf a factor.1)
  exact sound.run_eq_sumOver distinct (fun a ha => gather_entries segments sized ha) depends
    collects

end Sound

end Plan

end TensorCalculus
