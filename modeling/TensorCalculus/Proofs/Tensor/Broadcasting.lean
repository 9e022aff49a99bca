import TensorCalculus.Bulk.Run
import TensorCalculus.Proofs.Contraction.Requests
import TensorCalculus.Proofs.Subscripts.Printing
import TensorCalculus.Proofs.Tensor.Axes

/-!
# Vectors along an axis

A vector goes along an axis of a tensor when it has one entry for every place of that axis. Then it
is combined with the tensor by the coordinate on that axis alone, whatever the other axes are,
provided that the elements can be laid out in their shape. All else is refused for its shape or its
value. Multiplying along an axis is a contraction that sums over nothing: its symbols are those of
the tensor, and the vector repeats one of them. -/

namespace TensorCalculus

open TensorCalculus.Layout TensorCalculus.Outcome
open Factor

variable {α K τ : Type}

/-- Whether a fault lies in a shape or in a value. -/
def Fault.OfShapeOrValue (fault : Fault) : Prop :=
  fault.kind = "ShapeError" ∨ fault.kind = "ValueError"

/-- A fault of a shape is one of its numbers if they cannot be written. -/
theorem Fault.ofShapeOrValue_shape (cause : ShapeFault) (operand : Option Int)
    (label : Option String) : (Fault.shape cause operand label).OfShapeOrValue := by
  rw [OfShapeOrValue, kind_eq]
  split
  case isTrue => exact .inl rfl
  case isFalse => exact .inr rfl

namespace Tensor

/-- A vector with an entry for every place of an axis. A negative number counts the axes from the
last one. -/
structure FitsAxis (t v : Tensor α) (axis : Int) (a : Nat) : Prop where
  inside : a < t.shape.length
  named : axis = a ∨ axis = a - t.rank
  shape_eq : v.shape = [t.shape[a]]

/-- A tensor like another one, in which every element is combined with the entry of a vector that
its coordinate on one axis selects. -/
structure CombinedAlong (f : α → α → α) (t v : Tensor α) (a : Nat) (result : Tensor α) : Prop where
  alike : result.Alike t
  elem?_eq :
    ∀ coords, InRange t.shape coords → ∃ i x y, coords[a]? = some i ∧ t.elem? coords = some x ∧
    v.elem? [i] = some y ∧ result.elem? coords = some (f x y)

/-- Whether an operation carries a vector along an axis where it fits, and is refused for a shape or
a value where it does not, or where the elements cannot be laid out. -/
structure CarriesAlong (f : α → α → α) (t v : Tensor α) (axis : Int)
    (outcome : Except Fault (Tensor α)) : Prop where
  carried : ∀ a, t.FitsAxis v axis a → Addressable t.shape →
    ∃ result, outcome = .ok result ∧ t.CombinedAlong f v a result
  refused : (∀ a, t.FitsAxis v axis a → ¬ Addressable t.shape) →
    ∃ fault, outcome = .error fault ∧ fault.OfShapeOrValue

variable {operation : String} {f : α → α → α} {t v : Tensor α} {axis : Int} {a : Nat}

theorem combinedAlong_alongAxis (inside : a < t.shape.length) (fits : v.shape = [t.shape[a]]) :
    t.CombinedAlong f v a (alongAxis f t v a inside fits) where
  alike := ⟨rfl, rfl, rfl⟩
  elem?_eq coords here := by
    have count : a < coords.length := here.length_eq ▸ inside
    have selected : InRange v.shape [coords[a]] := by
      rw [fits]
      exact ⟨getElem_lt_of_inRange here inside count, trivial⟩
    exact ⟨coords[a], _, _, List.getElem?_eq_getElem count, elem?_eq_some here,
      elem?_eq_some selected, elem?_tabulate here⟩

theorem FitsAxis.broadcast_eq (fits : t.FitsAxis v axis a) (addressable : Addressable t.shape) :
    broadcast operation f t v (.int axis) = .ok (alongAxis f t v a fits.inside fits.shape_eq) := by
  obtain ⟨inside, named, shape_eq⟩ := fits
  have ranked : t.rank ≠ 0 := Nat.ne_zero_of_lt inside
  have named_axis : wrapped axis t.rank = a := by
    unfold wrapped
    rw [rank] at named ⊢
    split <;> omega
  have laid : t.checkLayout = .ok () := checkLayout_eq_ok_iff.2 addressable
  have counted : checkAxes t.rank = .ok () := checkAxes_eq_ok_iff.2 addressable.axes
  unfold broadcast
  split
  case h_1 length hv =>
    have same : t.shape[a] = length := by
      rw [shape_eq] at hv
      exact List.singleton_inj.1 hv
    have within : (0 : Int) ≤ a ∧ (a : Int) < t.rank :=
      ⟨Int.natCast_nonneg a, Int.ofNat_lt.2 inside⟩
    rw [if_neg ranked, wrappedAxis_int, ok_bind, named_axis, axisWithin_int, if_pos within, ok_bind]
    simp only [Int.toNat_natCast, inside, same, dif_pos, counted, laid, ok_bind, pure_eq_ok]
  case h_2 others => exact absurd shape_eq (others _)

theorem failsWith_broadcast :
    FailsWith Fault.OfShapeOrValue (broadcast operation f t v (.int axis)) := by
  unfold broadcast
  split
  case h_1 length hv =>
    split
    case isTrue => exact failsWith_error (.inl rfl)
    case isFalse =>
      rw [wrappedAxis_int, ok_bind, axisWithin_int]
      apply FailsWith.bind
      · split
        case isTrue => exact failsWith_ok
        case isFalse => exact failsWith_error (.inr rfl)
      · intro a
        split
        case isTrue inside =>
          split
          case isTrue fits =>
            apply ((failsWith_checkAxes t.rank).imp fun _ => Or.inr).bind
            intro _
            apply ((failsWith_checkRegrouping t.data.size t.shape).imp fun _ => Or.inr).bind
            intro _
            exact failsWith_ok
          case isFalse => exact failsWith_error (Fault.ofShapeOrValue_shape ..)
        case isFalse => exact failsWith_error (.inr rfl)
  case h_2 => exact failsWith_error (.inl rfl)

theorem fits_of_broadcast {result : Tensor α}
    (accepted : broadcast operation f t v (.int axis) = .ok result) :
    ∃ a, t.FitsAxis v axis a ∧ Addressable t.shape := by
  unfold broadcast at accepted
  split at accepted
  case h_1 length hv =>
    split at accepted
    case isTrue => cases accepted
    case isFalse =>
      rw [wrappedAxis_int, ok_bind, axisWithin_int] at accepted
      obtain ⟨a, within, accepted⟩ := bind_eq_ok_iff.1 accepted
      split at within
      case isFalse => cases within
      case isTrue nonnegative =>
        cases within
        split at accepted
        case isFalse => cases accepted
        case isTrue inside =>
          split at accepted
          case isFalse => cases accepted
          case isTrue same =>
            obtain ⟨_, -, accepted⟩ := bind_eq_ok_iff.1 accepted
            obtain ⟨_, laid, -⟩ := bind_eq_ok_iff.1 accepted
            refine ⟨_, ⟨inside, ?_, hv.trans (same ▸ rfl)⟩, checkLayout_eq_ok_iff.1 laid⟩
            unfold wrapped at nonnegative ⊢
            split at nonnegative <;> omega
  case h_2 => cases accepted

theorem carriesAlong_broadcast (operation : String) (f : α → α → α) (t v : Tensor α) (axis : Int) :
    t.CarriesAlong f v axis (broadcast operation f t v (.int axis)) where
  carried a fits addressable :=
    ⟨_, fits.broadcast_eq addressable, combinedAlong_alongAxis fits.inside fits.shape_eq⟩
  refused unfit := by
    cases outcome : broadcast operation f t v (.int axis) with
    | ok result =>
      obtain ⟨a, fits, addressable⟩ := fits_of_broadcast outcome
      exact absurd addressable (unfit a fits)
    | error fault => exact ⟨fault, rfl, failsWith_broadcast fault outcome⟩

end Tensor

section Contraction

/-- Subscripts that name one symbol of a tensor again, and sum over none. -/
def Subscripts.naming (letters : List Char) (c : Char) : Subscripts where
  inputs := [letters, [c]]
  output := letters

variable {letters : List Char} {c : Char}

theorem Subscripts.writable_naming (known : ∀ e ∈ letters, IsLetter e) (distinct : letters.Nodup)
    (member : c ∈ letters) : (naming letters c).Writable where
  inputs_ne_nil := List.cons_ne_nil _ _
  isLetter_inputs segment among := by
    rcases List.mem_pair.1 among with rfl | rfl
    · exact known
    · exact List.forall_mem_singleton.2 (known c member)
  isLetter_output := known
  nodup_output := distinct

variable [CommSemiring K] [BulkRoutine K] {t v : Tensor K} {axis : Int} {a : Nat}
  {settings : Settings τ}

/-- The contraction that names one symbol of a tensor again combines the elements along the axis of
that symbol. -/
theorem exists_einsum_naming (loop : settings.strategy = .loop)
    (unlimited : settings.sizeLimit = none) (fits : t.FitsAxis v axis a)
    (count : letters.length = t.shape.length) (distinct : letters.Nodup)
    (known : ∀ e ∈ letters, Subscripts.IsLetter e) (symbol : letters[a]? = some c)
    (name : Option String) :
    ∃ contraction, einsum settings (.written (.text (Subscripts.naming letters c).toText)) [.real t,
        .real v] name = .ok contraction ∧ contraction.shape = t.shape ∧
      ∀ coords i, InRange t.shape coords → coords[a]? = some i →
        contraction.entry coords = t.entry coords * v.entry [i] := by
  obtain ⟨inside, -, shape_eq⟩ := fits
  have member : c ∈ letters := List.mem_of_getElem? symbol
  have explained : letters.map (Assignment.value letters t.shape) = t.shape :=
    Assignment.map_value distinct count.symm
  have size : Assignment.value letters t.shape c = t.shape[a] :=
    Assignment.value_of_getElem? distinct count.symm symbol (List.getElem?_eq_getElem inside)
  let factors : List (Factor K) := [(letters, t), ([c], v)]
  have sized : Sized factors (Assignment.value letters t.shape) := by
    intro factor among
    rcases List.mem_pair.1 among with rfl | rfl
    · exact explained.symm
    · rw [List.map_singleton, size]
      exact shape_eq
  have asked : Asked factors letters (.written (.text (Subscripts.naming letters c).toText)) :=
    ⟨_, (Subscripts.writable_naming known distinct member).read_toText, rfl, rfl⟩
  have matched :
      Matched settings.repetition factors letters (Assignment.value letters t.shape) := by
    refine ⟨sized, fun e he => ⟨_, List.mem_cons_self, he⟩, fun _ => ?_⟩
    exact List.forall_mem_cons.2 ⟨distinct, List.forall_mem_singleton.2 (List.nodup_singleton c)⟩
  have affordable : Affordable settings factors letters (Assignment.value letters t.shape) := by
    apply affordable_of_volume_le unlimited List.mem_cons_self
    rw [explained]
  have kept : ∀ e, Occurs factors e → e ∈ letters := by
    rintro e ⟨factor, among, here⟩
    rcases List.mem_pair.1 among with rfl | rfl
    · exact here
    · exact List.mem_singleton.1 here ▸ member
  obtain ⟨contraction, contracted, shape, entries⟩ :=
    asked.exists_einsum loop distinct matched affordable kept name
  refine ⟨contraction, contracted, shape.trans explained, fun coords i here found => ?_⟩
  have count' : coords.length = letters.length := here.length_eq.trans count.symm
  have within : InRange (letters.map (Assignment.value letters t.shape)) coords := by
    rwa [explained]
  rw [entries coords within, product_cons, product_cons, Assignment.map_value distinct count',
    List.map_singleton, Assignment.value_of_getElem? distinct count' symbol found]
  simp [product]

end Contraction

/-- A vector that fits an axis is combined with a tensor along that axis only, and everything that
does not fit, or that cannot be laid out, is refused for its shape or its value. In exact
arithmetic, multiplying along an axis is the contraction that names the symbol of the axis again. -/
theorem broadcast_acts_along_axis :
    (∀ {α : Type} [Add α] [Mul α] (t v : Tensor α) (axis : Int),
      t.CarriesAlong (· + ·) v axis (t.broadcastAdd v (.int axis)) ∧
      t.CarriesAlong (· * ·) v axis (t.broadcastMultiply v (.int axis))) ∧
    ∀ {K τ : Type} [CommSemiring K] [BulkRoutine K] (settings : Settings τ) (t v : Tensor K)
      (axis : Int) (a : Nat) (letters : List Char) (c : Char) (name : Option String),
      settings.strategy = .loop → settings.sizeLimit = none → t.FitsAxis v axis a →
        Addressable t.shape →
      letters.length = t.rank → letters.Nodup → (∀ e ∈ letters, Subscripts.IsLetter e) →
      letters[a]? = some c →
      ∃ product contraction, t.broadcastMultiply v (.int axis) = .ok product ∧
        einsum settings (.written (.text (Subscripts.naming letters c).toText)) [.real t, .real v]
          name = .ok contraction ∧
        contraction.shape = product.shape ∧ contraction.data = product.data := by
  constructor
  · intro α _ _ t v axis
    exact ⟨Tensor.carriesAlong_broadcast _ _ t v axis, Tensor.carriesAlong_broadcast _ _ t v axis⟩
  · intro K τ _ _ settings t v axis a letters c name loop unlimited fits addressable count distinct
      known symbol
    obtain ⟨contraction, contracted, shape, entries⟩ :=
      exists_einsum_naming loop unlimited fits count distinct known symbol name
    obtain ⟨product, multiplied, ⟨-, -, shape_eq⟩, cells⟩ :=
      (Tensor.carriesAlong_broadcast "broadcast_multiply" (· * ·) t v axis).carried a fits
        addressable
    have shapes : contraction.shape = product.shape := shape.trans shape_eq.symm
    refine ⟨product, contraction, multiplied, contracted, shapes, ?_⟩
    apply Tensor.data_ext shapes
    intro coords inside
    rw [shape] at inside
    obtain ⟨i, x, y, found, left, right, here⟩ := cells coords inside
    rw [entries coords i inside found, Tensor.entry, Tensor.entry, Tensor.entry, left, right, here]
    rfl

/-- A single element under more axes than a block can have. -/
def manyAxes : Tensor Float :=
  ⟨"point", List.replicate 65 "i", List.replicate 65 1, #[7], rfl, rfl⟩

def singleEntry : Tensor Float := ⟨"shift", ["place"], [1], #[1], rfl, rfl⟩

/-- No element, under an axis that is longer than a machine word can count. -/
def endlessColumns : Tensor Float := ⟨"nothing", ["line", "column"], [0, 2 ^ 63], #[], rfl, rfl⟩

def noEntry : Tensor Float := ⟨"none", ["line"], [0], #[], rfl, rfl⟩

/-- Not every tensor can be broadcast onto: its elements must be able to lie in its shape. -/
theorem broadcast_unaddressable :
    manyAxes.FitsAxis singleEntry (-1) 64 ∧
      manyAxes.broadcastAdd singleEntry (.int (-1)) = .error (.value (.axisLimit 65)) ∧
      manyAxes.broadcastMultiply singleEntry (.int (-1)) = .error (.value (.axisLimit 65)) ∧
      endlessColumns.FitsAxis noEntry 0 0 ∧
      endlessColumns.broadcastAdd noEntry (.int 0) = .error (.value .dimensionLimit) ∧
      endlessColumns.broadcastMultiply noEntry (.int 0) = .error (.value .dimensionLimit) := by
  refine ⟨⟨by decide, .inr rfl, rfl⟩, rfl, rfl, ⟨by decide, .inl rfl, rfl⟩, rfl, rfl⟩

def sheets : Tensor ℚ :=
  ⟨"sheets", ["x", "y", "z"], [2, 3, 2], #[0, 1, 2, 3, 4, 5, 6, 7, 8, 9, 10, 11], rfl, rfl⟩

def rates : Tensor ℚ := ⟨"rates", ["y"], [3], #[1, 1 / 2, -3], rfl, rfl⟩

attribute [local instance] Bulk.routine

/-- The rows of two sheets, which are the middle axis, counted from the last one. -/
theorem broadcast_acts_along_axis_rows :
    sheets.FitsAxis rates (-2) 1 ∧ Addressable sheets.shape ∧
      (∃ sum, sheets.broadcastAdd rates (.int (-2)) = .ok sum ∧ sum.elem? [1, 2, 0] = some 7) ∧
      (∃ product contraction, sheets.broadcastMultiply rates (.int (-2)) = .ok product ∧
        einsum ({ tolerance := () } : Settings Unit) (.written (.text "xYz,Y->xYz"))
          [.real sheets, .real rates] none = .ok contraction ∧
        contraction.data = product.data) ∧
      ∃ fault, sheets.broadcastAdd rates (.int 3) = .error fault ∧ fault.OfShapeOrValue := by
  obtain ⟨along, contractions⟩ := broadcast_acts_along_axis
  have fits : sheets.FitsAxis rates (-2) 1 := ⟨by decide, .inr rfl, rfl⟩
  have addressable : Addressable sheets.shape := by decide
  refine ⟨fits, addressable, ?_, ?_, ?_⟩
  · obtain ⟨sum, added, -, cells⟩ := (along sheets rates (-2)).1.carried 1 fits addressable
    obtain ⟨i, x, y, found, left, right, here⟩ := cells [1, 2, 0] (by decide)
    cases found
    cases left
    cases right
    exact ⟨sum, added, here.trans (by decide +kernel)⟩
  · have known : ∀ e ∈ ['x', 'Y', 'z'], Subscripts.IsLetter e := by
      have all : ['x', 'Y', 'z'].all Char.isAlpha := by decide
      exact fun e among => Subscripts.isAlpha_iff_isLetter.1 (List.all_eq_true.1 all e among)
    obtain ⟨product, contraction, multiplied, contracted, -, same⟩ :=
      contractions { tolerance := () } sheets rates
        (-2) 1 ['x', 'Y', 'z'] 'Y' none rfl rfl fits addressable rfl (by decide) known rfl
    exact ⟨product, contraction, multiplied, contracted, same⟩
  · apply (along sheets rates 3).1.refused
    rintro a ⟨inside, named, -⟩
    have short : a < 3 := inside
    have rank : sheets.rank = 3 := rfl
    omega

end TensorCalculus
