import TensorCalculus.Proofs.Contraction.Cells
import TensorCalculus.Proofs.Layout.RowMajor
import TensorCalculus.Proofs.Tensor.Entries
import TensorCalculus.Proofs.Usage.Histories

/-!
# Writing elements

A tensor of a store is written element by element. A write either puts its element where it belongs,
or is refused and leaves the store as it is; all checks come before the change. So after any number
of writes, refused ones among them, a tensor holds at all coordinates what was written there last,
and what it held at first where nothing was. Real and hypercomplex tensors differ only in what
counts as an element. -/

namespace TensorCalculus

open TensorCalculus.Layout TensorCalculus.Outcome

variable {α ν : Type}

theorem locate_int (shape coords : List Int) :
    locate Literal.toInt shape (coords.map .int) = flatOffset shape coords := by
  have from_ (axis : Nat) (shape coords : List Int) :
      locateFrom Literal.toInt axis shape (coords.map .int) = locateFrom .ok axis shape coords := by
    induction shape generalizing axis coords with
    | nil => rfl
    | cons d ds ih =>
      cases coords with
      | nil => rfl
      | cons c cs =>
        rw [List.map_cons, locateFrom, locateFrom, ih]
        rfl
  rw [flatOffset, locate, locate, List.length_map, from_]

namespace Tensor

/-- The element at coordinates that are given as whole numbers. -/
def element (t : Tensor α) (coords : List Int) : Except Fault α :=
  t.get Literal.toInt (coords.map .int)

theorem element_cast {t : Tensor α} {c : List Nat} (inside : InRange t.shape c) :
    t.element (c.map Int.ofNat) = .ok (t.elem c inside) := by
  have bound : offset t.shape c < t.data.size := t.size_data ▸ offset_lt_volume inside
  rw [element, get, locate, locate_int, dims, flatOffset_cast inside, ok_bind]
  exact Contraction.readAt_natCast t.data _ (Array.getElem?_eq_getElem bound)

theorem exists_element {t : Tensor α} {coords : List Int} (within : Within t.dims coords) :
    ∃ x, t.element coords = .ok x := by
  obtain ⟨c, inside, rfl⟩ := within_cast_iff.1 within
  exact ⟨_, element_cast inside⟩

theorem element_of_not_within {t : Tensor α} {coords : List Int}
    (outside : ¬ Within t.dims coords) : ∃ cause, t.element coords = .error (.bounds cause) := by
  obtain ⟨cause, refused, -⟩ := flatOffset_of_not_within outside
  rw [element, get, locate, locate_int, refused]
  exact ⟨cause, rfl⟩

/-- An element that is put at coordinates of a tensor is found there, and nothing else changes. -/
structure Put (t : Tensor α) (coords : List Int) (x : α) (next : Tensor α) : Prop where
  alike : next.Alike t
  here : next.element coords = .ok x
  elsewhere : ∀ c, c ≠ coords → next.element c = t.element c

theorem exists_set {t : Tensor α} {coords : List Int} (within : Within t.dims coords) (x : α) :
    ∃ next, t.set Literal.toInt (coords.map .int) x = .ok next ∧ t.Put coords x next := by
  obtain ⟨c, inside, rfl⟩ := within_cast_iff.1 within
  have bound : offset t.shape c < t.data.size := t.size_data ▸ offset_lt_volume inside
  let next : Tensor α := t.withData (t.data.setIfInBounds (offset t.shape c) x) (by simp)
  have written : t.set Literal.toInt ((c.map Int.ofNat).map .int) x = .ok next := by
    rw [set, locate, locate_int, dims, flatOffset_cast inside, ok_bind]
    rfl
  have located (coords : List Int) : next.element coords =
      flatOffset t.dims coords >>=
        Contraction.readAt (t.data.setIfInBounds (offset t.shape c) x) := by
    rw [element, get, locate, locate_int]
    rfl
  refine ⟨next, written, ⟨rfl, rfl, rfl⟩, ?_, ?_⟩
  · rw [located, dims, flatOffset_cast inside, ok_bind]
    exact Contraction.readAt_natCast _ _ (Array.getElem?_setIfInBounds_self_of_lt bound)
  · intro other differ
    rw [located, element, get, locate, locate_int]
    by_cases within : Within t.dims other
    · obtain ⟨e, there, rfl⟩ := within_cast_iff.1 within
      have apart : offset t.shape c ≠ offset t.shape e := by
        intro same
        rw [offset_injective inside there same] at differ
        exact differ rfl
      rw [dims, flatOffset_cast there, ok_bind, ok_bind, ← Int.ofNat_eq_natCast, Contraction.readAt,
        Contraction.readAt, Array.getElem?_setIfInBounds_ne apart, Array.size_setIfInBounds]
    · obtain ⟨cause, refused, -⟩ := flatOffset_of_not_within within
      rw [refused]
      rfl

theorem set_of_not_within {t : Tensor α} {coords : List Int} (outside : ¬ Within t.dims coords)
    (x : α) : ∃ cause, t.set Literal.toInt (coords.map .int) x = .error (.bounds cause) := by
  obtain ⟨cause, refused, -⟩ := flatOffset_of_not_within outside
  rw [set, locate, locate_int, refused]
  exact ⟨cause, rfl⟩

end Tensor

/-- The number that a term is, if it belongs to a given algebra. -/
def Term.ofAlgebra? (algebra : AlgebraTag) : Term α → Option (Number α)
  | .number x => if x.algebra = algebra then some x else none
  | _ => none

/-- The element that was written last at given coordinates, writes of what is no element left
aside. -/
def lastWritten (element? : ν → Option α) (coords : List Int) (writes : List (ν × List Int)) :
    Option α :=
  writes.reverse.findSome? fun write => if write.2 = coords then element? write.1 else none

theorem lastWritten_concat (element? : ν → Option α) (coords : List Int)
    (writes : List (ν × List Int)) (write : ν × List Int) :
    lastWritten element? coords (writes ++ [write]) =
      (if write.2 = coords then element? write.1 else none).or
        (lastWritten element? coords writes) := by
  rw [lastWritten, lastWritten, List.reverse_append, List.reverse_singleton, List.singleton_append,
    List.findSome?_cons]
  cases (if write.2 = coords then element? write.1 else none) <;> rfl

/-- What a tensor has become by some writes: one like it, in which the element at all coordinates is
the last one that was written there, or the first one where none was. -/
structure Tensor.Overwritten (t : Tensor α) (element? : ν → Option α) (writes : List (ν × List Int))
    (next : Tensor α) : Prop where
  alike : next.Alike t
  size_data : next.data.size = volume t.shape
  element_eq : ∀ coords, Within t.dims coords → ∃ first, t.element coords = .ok first ∧
    next.element coords = .ok ((lastWritten element? coords writes).getD first)
  refused : ∀ coords, ¬ Within t.dims coords → ∃ cause, next.element coords = .error (.bounds cause)

namespace Tensor.Overwritten

variable {t next after : Tensor α} {element? : ν → Option α} {writes : List (ν × List Int)}
  {value : ν} {coords : List Int}

theorem nil (t : Tensor α) : t.Overwritten element? [] t where
  alike := ⟨rfl, rfl, rfl⟩
  size_data := t.size_data
  element_eq coords within := by
    obtain ⟨x, found⟩ := exists_element within
    exact ⟨x, found, found⟩
  refused _ := element_of_not_within

/-- A further write that is carried out. -/
theorem concat_put (overwritten : t.Overwritten element? writes next) {x : α}
    (element : element? value = some x) (put : next.Put coords x after) :
    t.Overwritten element? (writes ++ [(value, coords)]) after := by
  obtain ⟨⟨name_eq, indices_eq, shape_eq⟩, size_data, element_eq, refused⟩ := overwritten
  have shapes : after.shape = t.shape := put.alike.shape_eq.trans shape_eq
  refine ⟨⟨put.alike.name_eq.trans name_eq, put.alike.indices_eq.trans indices_eq, shapes⟩,
    after.size_data.trans (congrArg volume shapes), ?_, ?_⟩
  · intro c within
    obtain ⟨first, initial, current⟩ := element_eq c within
    refine ⟨first, initial, ?_⟩
    rw [lastWritten_concat]
    by_cases same : coords = c
    · subst same
      rw [put.here, if_pos rfl, element, Option.some_or, Option.getD_some]
    · rw [put.elsewhere c (Ne.symm same), if_neg same, Option.none_or, current]
  · intro c outside
    apply element_of_not_within
    rwa [dims, shapes]

/-- A further write that is refused. -/
theorem concat_refused (overwritten : t.Overwritten element? writes next)
    (refused : element? value = none ∨ ¬ Within t.dims coords) :
    t.Overwritten element? (writes ++ [(value, coords)]) next := by
  refine { overwritten with element_eq := ?_ }
  intro c within
  have skipped : (if coords = c then element? value else none) = none := by
    rcases refused with none | outside
    · rw [none, ite_self]
    · rw [if_neg]
      rintro rfl
      exact outside within
  rw [lastWritten_concat, skipped, Option.none_or]
  exact overwritten.element_eq c within

end Tensor.Overwritten

theorem Term.ofAlgebra?_eq_some_iff {algebra : AlgebraTag} {term : Term α} {x : Number α} :
    term.ofAlgebra? algebra = some x ↔ term = .number x ∧ x.algebra = algebra := by
  cases term with
  | number y =>
    rw [ofAlgebra?, Option.ite_none_right_eq_some, Option.some.injEq, number.injEq]
    constructor
    · rintro ⟨tagged, rfl⟩
      exact ⟨rfl, tagged⟩
    · rintro ⟨rfl, tagged⟩
      exact ⟨tagged, rfl⟩
  | plain value => simp [ofAlgebra?]
  | block kind entries => simp [ofAlgebra?]
  | numbers entries => simp [ofAlgebra?]
  | foreign kind => simp [ofAlgebra?]

namespace HyperTensor

variable {κ : Type} {understand : κ → Except Fault Int} {t : HyperTensor α} {coords : List κ}
  {x : Number α}

theorem checkElement_number (tagged : x.algebra = t.algebra) :
    checkElement t.algebra none (.number x) = .ok ⟨x, tagged⟩ := by
  rw [checkElement, dif_pos tagged]

/-- A number of the algebra is written as into any tensor. -/
theorem exists_set (tagged : x.algebra = t.algebra) {next : Tensor (Number α)}
    (written : t.toTensor.set understand coords x = .ok next) :
    ∃ h, t.set understand (.number x) coords = .ok h ∧ h.toTensor = next ∧
      h.algebra = t.algebra := by
  obtain ⟨place, located, same⟩ := bind_eq_ok_iff.1 written
  cases same
  rw [set, checkElement_number tagged, ok_bind, located]
  exact ⟨_, rfl, rfl, rfl⟩

theorem set_of_error (tagged : x.algebra = t.algebra) {fault : Fault}
    (refused : t.toTensor.set understand coords x = .error fault) :
    t.set understand (.number x) coords = .error fault := by
  rw [Tensor.set] at refused
  rw [set, checkElement_number tagged, ok_bind]
  cases located : t.toTensor.locate understand coords with
  | error fault =>
    rw [located] at refused
    cases refused
    rfl
  | ok place =>
    rw [located] at refused
    cases refused

/-- Anything else is no element, wherever it should go. -/
theorem set_of_ofAlgebra?_eq_none {term : Term α} (foreign : term.ofAlgebra? t.algebra = none)
    (understand : κ → Except Fault Int) (coords : List κ) :
    ∃ fault, t.set understand term coords = .error fault := by
  have refused : ∃ fault, checkElement t.algebra none term = .error fault := by
    cases term with
    | number x =>
      have other : ¬ x.algebra = t.algebra := by
        intro tagged
        rw [Term.ofAlgebra?, if_pos tagged] at foreign
        cases foreign
      rw [checkElement, dif_neg other]
      exact ⟨_, rfl⟩
    | plain value => exact ⟨_, rfl⟩
    | block kind entries => exact ⟨_, rfl⟩
    | numbers entries => exact ⟨_, rfl⟩
    | foreign kind => exact ⟨_, rfl⟩
  obtain ⟨fault, refused⟩ := refused
  rw [set, refused]
  exact ⟨fault, rfl⟩

end HyperTensor

/-- A store in which one object has been replaced. -/
def Store.replaced (store : Store) (ref : Ref) (object : Object) : Store :=
  { store with objects := store.objects.setIfInBounds ref object }

theorem Store.replaced_self {store : Store} {ref : Ref} {object : Object}
    (found : store.objects[ref]? = some object) : store.replaced ref object = store := by
  obtain ⟨bound, rfl⟩ := Array.getElem?_eq_some_iff.1 found
  rw [replaced, Array.setIfInBounds, dif_pos bound, Array.set_getElem_self]

namespace Action

/-- Whether each write is all or nothing, in stores that hold a tensor. What is an element, and lies
within the shape, is put where it belongs. What lies outside is out of bounds, and what is no
element is refused as well; the store is then as it was. -/
structure AllOrNothing (write : ν → List Literal → Action Unit) (element? : ν → Option α)
    (Holds : Store → Tensor α → Prop) : Prop where
  put : ∀ {store t value x coords}, Holds store t → element? value = some x → Within t.dims coords →
    ∃ after next, (write value (coords.map .int)).outcome store = (.ok (), after) ∧
      Holds after next ∧ t.Put coords x next
  misplaced : ∀ {store t value x coords}, Holds store t → element? value = some x →
    ¬ Within t.dims coords →
    ∃ cause, (write value (coords.map .int)).outcome store = (.error (.bounds cause), store)
  rejected : ∀ {store t value} coords, Holds store t → element? value = none →
    ∃ fault, (write value coords).outcome store = (.error fault, store)

/-- The store after a list of writes, each of which may have been refused. -/
def afterWrites (write : ν → List Literal → Action Unit) (store : Store)
    (writes : List (ν × List Int)) : Store :=
  writes.foldl (fun store w => ((write w.1 (w.2.map .int)).outcome store).2) store

namespace AllOrNothing

variable {write : ν → List Literal → Action Unit} {element? : ν → Option α}
  {Holds : Store → Tensor α → Prop} (allOrNothing : AllOrNothing write element? Holds)
include allOrNothing

/-- One more write carries the last elements on. -/
theorem step {store : Store} {t now : Tensor α} {writes : List (ν × List Int)}
    (held : Holds store now) (overwritten : t.Overwritten element? writes now) (w : ν × List Int) :
    ∃ next, Holds ((write w.1 (w.2.map .int)).outcome store).2 next ∧
      t.Overwritten element? (writes ++ [w]) next := by
  have dims : now.dims = t.dims := congrArg (List.map Int.ofNat) overwritten.alike.shape_eq
  cases element : element? w.1 with
  | none =>
    obtain ⟨fault, outcome⟩ := allOrNothing.rejected (w.2.map .int) held element
    rw [outcome]
    exact ⟨now, held, overwritten.concat_refused (.inl element)⟩
  | some x =>
    by_cases within : Within now.dims w.2
    · obtain ⟨after, next, outcome, holds, put⟩ := allOrNothing.put held element within
      rw [outcome]
      exact ⟨next, holds, overwritten.concat_put element put⟩
    · obtain ⟨cause, outcome⟩ := allOrNothing.misplaced held element within
      rw [outcome]
      rw [dims] at within
      exact ⟨now, held, overwritten.concat_refused (.inr within)⟩

/-- After any number of writes the tensor holds what was written last. -/
theorem run {store : Store} {t : Tensor α} (held : Holds store t) (writes : List (ν × List Int)) :
    ∃ next, Holds (afterWrites write store writes) next ∧ t.Overwritten element? writes next := by
  induction writes using List.reverseRecOn with
  | nil => exact ⟨t, held, .nil t⟩
  | append_singleton writes w ih =>
    obtain ⟨now, held, overwritten⟩ := ih
    obtain ⟨next, holds, overwritten⟩ := allOrNothing.step held overwritten w
    refine ⟨next, ?_, overwritten⟩
    rw [afterWrites, List.foldl_append, List.foldl_cons, List.foldl_nil]
    exact holds

end AllOrNothing

/-- Whether a store is a given one in which a real tensor has taken the place of an object. -/
def HoldsReal (original : Store) (ref : Ref) (store : Store) (t : Tensor Float) : Prop :=
  store = original.replaced ref (.tensor t)

/-- Whether a store is a given one in which a tensor of an algebra has taken the place of an
object. -/
def HoldsNumbers (original : Store) (ref : Ref) (algebra : AlgebraTag) (store : Store)
    (t : Tensor (Number Float)) : Prop :=
  ∃ h : HyperTensor Float, h.toTensor = t ∧ h.algebra = algebra ∧
    store = original.replaced ref (.hyper h)

variable {store : Store} {ref : Ref}

theorem outcome_operand {object : Object} (found : store.objects[ref]? = some object) :
    (operand ref).outcome store = (.ok object.toOperand, store) := by
  simp only [operand, outcome_bind, outcome_read_of_some found, outcome_pure]

theorem getElem?_replaced (bound : ref < store.objects.size) (object : Object) :
    (store.replaced ref object).objects[ref]? = some object :=
  Array.getElem?_setIfInBounds_self_of_lt bound

theorem replaced_replaced (object next : Object) :
    (store.replaced ref object).replaced ref next = store.replaced ref next := by
  simp [Store.replaced]

theorem setElement_allOrNothing (bound : ref < store.objects.size) :
    AllOrNothing (setElement ref) (fun value => value.toDouble.toOption) (HoldsReal store ref) := by
  constructor
  case put =>
    rintro _ t value x coords rfl element within
    obtain ⟨next, written, put⟩ := Tensor.exists_set within x
    refine ⟨_, next, ?_, replaced_replaced (.tensor t) (.tensor next), put⟩
    simp only [setElement, outcome_bind, toOption_eq_some_iff.1 element, outcome_ofExcept,
      outcome_operand (getElem?_replaced bound _), Object.toOperand, Operand.setReal, written,
      outcome_write]
    rfl
  case misplaced =>
    rintro _ t value x coords rfl element outside
    obtain ⟨cause, refused⟩ := Tensor.set_of_not_within outside x
    refine ⟨cause, ?_⟩
    simp only [setElement, outcome_bind, toOption_eq_some_iff.1 element, outcome_ofExcept,
      outcome_operand (getElem?_replaced bound _), Object.toOperand, Operand.setReal, refused]
  case rejected =>
    rintro _ t value coords rfl foreign
    cases double : value.toDouble with
    | ok x =>
      rw [double] at foreign
      cases foreign
    | error fault =>
      refine ⟨fault, ?_⟩
      simp only [setElement, outcome_bind, double, outcome_ofExcept]

theorem setNumber_allOrNothing (bound : ref < store.objects.size) (algebra : AlgebraTag) :
    AllOrNothing (setNumber ref) (Term.ofAlgebra? algebra) (HoldsNumbers store ref algebra) := by
  constructor
  case put =>
    rintro _ _ value x coords ⟨h, rfl, rfl, rfl⟩ element within
    obtain ⟨next, written, put⟩ := Tensor.exists_set within x
    obtain ⟨rfl, tagged⟩ := Term.ofAlgebra?_eq_some_iff.1 element
    obtain ⟨h', writtenNumber, rfl, same⟩ := HyperTensor.exists_set tagged written
    refine ⟨_, h'.toTensor, ?_, ⟨h', rfl, same, replaced_replaced (.hyper h) (.hyper h')⟩, put⟩
    simp only [setNumber, outcome_bind, outcome_ofExcept,
      outcome_operand (getElem?_replaced bound _), Object.toOperand, Operand.expectHyper,
      writtenNumber, outcome_write]
    rfl
  case misplaced =>
    rintro _ _ value x coords ⟨h, rfl, rfl, rfl⟩ element outside
    obtain ⟨cause, refused⟩ := Tensor.set_of_not_within outside x
    obtain ⟨rfl, tagged⟩ := Term.ofAlgebra?_eq_some_iff.1 element
    refine ⟨cause, ?_⟩
    simp only [setNumber, outcome_bind, outcome_ofExcept,
      outcome_operand (getElem?_replaced bound _), Object.toOperand, Operand.expectHyper,
      HyperTensor.set_of_error tagged refused]
  case rejected =>
    rintro _ _ value coords ⟨h, rfl, rfl, rfl⟩ foreign
    obtain ⟨fault, refused⟩ := HyperTensor.set_of_ofAlgebra?_eq_none foreign Literal.toInt coords
    refine ⟨fault, ?_⟩
    simp only [setNumber, outcome_bind, outcome_ofExcept,
      outcome_operand (getElem?_replaced bound _), Object.toOperand, Operand.expectHyper, refused]

/-- Tensors are arrays. Coordinates within a shape lie one to one and in lexicographic order on the
places of the buffer, and all others are out of bounds. Writing an element changes the object that
is written, and of its elements that one only; a write that is refused changes nothing. So after any
writes each element is the last one that was written at its coordinates, or the first one if none
was, and the tensor keeps its shape, its number of elements, and its algebra. -/
theorem elements_obey_array_laws :
    (∀ shape : List Int, (∀ d ∈ shape, 0 ≤ d) → RowMajor shape) ∧
    (∀ (store : Store) (ref : Ref) (t : Tensor Float), store.objects[ref]? = some (.tensor t) →
      AllOrNothing (setElement ref) (fun value => value.toDouble.toOption) (HoldsReal store ref) ∧
      ∀ writes, ∃ next, HoldsReal store ref (afterWrites (setElement ref) store writes) next ∧
        t.Overwritten (fun value => value.toDouble.toOption) writes next) ∧
    ∀ (store : Store) (ref : Ref) (t : HyperTensor Float), store.objects[ref]? = some (.hyper t) →
      AllOrNothing (setNumber ref) (Term.ofAlgebra? t.algebra) (HoldsNumbers store ref t.algebra) ∧
      ∀ writes,
        ∃ next, HoldsNumbers store ref t.algebra (afterWrites (setNumber ref) store writes) next ∧
        t.toTensor.Overwritten (Term.ofAlgebra? t.algebra) writes next ∧
        ∀ x ∈ next.data, x.algebra = t.algebra := by
  refine ⟨fun shape => rowMajor_of_nonneg, ?_, ?_⟩
  · intro store ref t found
    have bound : ref < store.objects.size := (Array.getElem?_eq_some_iff.1 found).1
    have allOrNothing := setElement_allOrNothing bound
    refine ⟨allOrNothing, ?_⟩
    exact allOrNothing.run (Store.replaced_self found).symm
  · intro store ref t found
    have bound : ref < store.objects.size := (Array.getElem?_eq_some_iff.1 found).1
    have allOrNothing := setNumber_allOrNothing bound t.algebra
    refine ⟨allOrNothing, fun writes => ?_⟩
    have held : HoldsNumbers store ref t.algebra store t.toTensor :=
      ⟨t, rfl, rfl, (Store.replaced_self found).symm⟩
    obtain ⟨next, holds, overwritten⟩ := allOrNothing.run held writes
    refine ⟨next, holds, overwritten, ?_⟩
    obtain ⟨h, rfl, tag, -⟩ := holds
    exact fun x hx => (h.tagged x hx).trans tag

def table : Tensor Float := ⟨"table", ["shelf", "place"], [2, 2], #[3, 2, 8, 4], rfl, rfl⟩

def realUnit : Number Float := ⟨.complex, .complex, [1, 0], rfl⟩

def imaginaryUnit : Number Float := ⟨.complex, .complex, [0, 1], rfl⟩

def phases : HyperTensor Float where
  name := "phases"
  indices := ["phase"]
  shape := [2]
  data := #[realUnit, realUnit]
  length_indices := rfl
  size_data := rfl
  algebra := .complex
  tagged x hx := by
    simp only [List.mem_toArray, List.mem_cons, List.not_mem_nil, or_false, or_self] at hx
    rw [hx]
    rfl

/-- A store that holds both. -/
def desk : Store := { objects := #[.tensor table, .hyper phases] }

/-- One element is written twice, with a write in between that has no number to write, and one past
the end. -/
def tableWrites : List (Literal × List Int) :=
  [(.real 5, [1, 0]), (.null, [1, 0]), (.real 6, [1, 2]), (.real 7, [1, 0])]

/-- A number is written, then something that is none, and a number before the first place. -/
def phaseWrites : List (Term Float × List Int) :=
  [(.number imaginaryUnit, [1]), (.plain (.real 1), [1]), (.number imaginaryUnit, [-1])]

theorem elements_obey_array_laws_desk :
    (∀ d ∈ [2, 0, 3], (0 : Int) ≤ d) ∧ RowMajor [2, 0, 3] ∧
      desk.objects[0]? = some (.tensor table) ∧ desk.objects[1]? = some (.hyper phases) ∧
      (∃ next, HoldsReal desk 0 (afterWrites (setElement 0) desk tableWrites) next ∧
        next.element [1, 0] = .ok 7 ∧ next.element [0, 1] = .ok 2) ∧
      ∃ next, HoldsNumbers desk 1 .complex (afterWrites (setNumber 1) desk phaseWrites) next ∧
        next.element [1] = .ok imaginaryUnit ∧ next.element [0] = .ok realUnit := by
  obtain ⟨rowMajor, reals, numbers⟩ := elements_obey_array_laws
  have nonnegative : ∀ d ∈ [2, 0, 3], (0 : Int) ≤ d := by decide
  have found : desk.objects[0]? = some (.tensor table) := rfl
  have foundNumbers : desk.objects[1]? = some (.hyper phases) := rfl
  refine ⟨nonnegative, rowMajor _ nonnegative, found, foundNumbers, ?_, ?_⟩
  · obtain ⟨next, holds, overwritten⟩ := (reals desk 0 table found).2 tableWrites
    refine ⟨next, holds, ?_, ?_⟩
    · obtain ⟨first, -, last⟩ :=
        overwritten.element_eq [1, 0] (within_cast_iff.2 ⟨[1, 0], by decide, rfl⟩)
      exact last
    · obtain ⟨first, initial, last⟩ :=
        overwritten.element_eq [0, 1] (within_cast_iff.2 ⟨[0, 1], by decide, rfl⟩)
      cases initial
      exact last
  · obtain ⟨next, holds, overwritten, -⟩ := (numbers desk 1 phases foundNumbers).2 phaseWrites
    refine ⟨next, holds, ?_, ?_⟩
    · obtain ⟨first, -, last⟩ :=
        overwritten.element_eq [1] (within_cast_iff.2 ⟨[1], by decide, rfl⟩)
      exact last
    · obtain ⟨first, initial, last⟩ :=
        overwritten.element_eq [0] (within_cast_iff.2 ⟨[0], by decide, rfl⟩)
      cases initial
      exact last

end Action

end TensorCalculus
