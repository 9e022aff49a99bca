import TensorCalculus.Proofs.Outcome
import TensorCalculus.Tower.Number

/-!
# Dimensions

The product halves its factors until one component is left, so it needs a power of two of them.
Numbers are made in several ways, and every way but one sees to that by itself: a number with a tag
of one's own choice has as many components as the tag says, which may be any number. Operations keep
the dimension, halve it or double it. -/

namespace TensorCalculus

-- Powers of natural numbers are those of `Nat.pow`, as in the definitions.
attribute [local instance (2000)] instPowNat

open TensorCalculus.Outcome

variable {α β γ : Type}

/-- Whether a computation comes to a value with a given property, or else to a fault of the
algebra. -/
def Yields (good : β → Prop) (outcome : Except Fault β) : Prop :=
  (∃ x, outcome = .ok x ∧ good x) ∨ ∃ cause, outcome = .error (.algebra cause)

namespace Yields

variable {good : β → Prop} {better : γ → Prop}

theorem ok {x : β} (holds : good x) : Yields good (.ok x) :=
  .inl ⟨x, rfl, holds⟩

theorem error (cause : AlgebraFault) : Yields good (.error (.algebra cause)) :=
  .inr ⟨cause, rfl⟩

theorem bind {outcome : Except Fault β} {next : β → Except Fault γ} (yields : Yields good outcome)
    (continues : ∀ x, good x → Yields better (next x)) : Yields better (outcome >>= next) := by
  rcases yields with ⟨x, rfl, holds⟩ | ⟨cause, rfl⟩
  · exact continues x holds
  · exact .error cause

theorem mono {also : β → Prop} {outcome : Except Fault β} (yields : Yields good outcome)
    (implies : ∀ x, good x → also x) : Yields also outcome := by
  rcases yields with ⟨x, rfl, holds⟩ | ⟨cause, rfl⟩
  · exact .ok (implies x holds)
  · exact .error cause

end Yields

theorem isPowerOfTwo_iff {n : Nat} : isPowerOfTwo n = true ↔ ∃ k, n = 2 ^ k := by
  rw [isPowerOfTwo, beq_iff_eq]
  constructor
  · exact fun same => ⟨n.log2, same.symm⟩
  · rintro ⟨k, rfl⟩
    rw [Nat.log2_two_pow]

namespace AlgebraTag

/-- The dimension of an algebra of the tower. -/
def Regular (tag : AlgebraTag) : Prop :=
  ∃ k : Nat, tag.dimension = (2 ^ k : Nat)

theorem regular_of_mem_named {tag : AlgebraTag} (mem : tag ∈ named) : tag.Regular := by
  have powers : ∀ tag ∈ named, tag.dimension = (2 ^ tag.dimension.toNat.log2 : Nat) := by decide
  exact ⟨_, powers tag mem⟩

theorem standard_yields (dimension : Int) :
    Yields (fun tag => tag.dimension = dimension ∧ tag.Regular) (standard dimension) := by
  unfold standard
  split
  case h_1 tag found =>
    have same := List.find?_some found
    exact .ok ⟨of_decide_eq_true same, regular_of_mem_named (List.mem_of_find?_eq_some found)⟩
  case h_2 =>
    split
    case isTrue regular =>
      obtain ⟨k, power⟩ := isPowerOfTwo_iff.1 regular.2
      refine .ok ⟨rfl, k, ?_⟩
      change dimension = _
      omega
    case isFalse => exact .error _

end AlgebraTag

namespace Number

/-- Whether a number has a power of two of components, as many as its tag says. -/
def Balanced (x : Number α) : Prop :=
  ∃ k, x.components.length = 2 ^ k ∧ x.algebra.dimension = (2 ^ k : Nat)

theorem balanced_iff_regular {x : Number α} : x.Balanced ↔ x.algebra.Regular := by
  have size := x.length_components
  constructor
  · rintro ⟨k, -, dimension⟩
    exact ⟨k, dimension⟩
  · rintro ⟨k, dimension⟩
    exact ⟨k, Int.ofNat_inj.1 (size.trans dimension), dimension⟩

theorem balanced_of_length {x : Number α} {k : Nat} (power : x.components.length = 2 ^ k) :
    x.Balanced :=
  ⟨k, power, by rw [← x.length_components, power]⟩

section Making

theorem ofTag_yields (view : View) (tag : AlgebraTag) (components : List α) :
    Yields (fun x => x.components = components ∧ x.algebra = tag) (ofTag view tag components) := by
  unfold ofTag
  split
  case isTrue => exact .ok ⟨rfl, rfl⟩
  case isFalse => exact .error _

/-- A number in a given form is balanced, whatever its tag is. -/
theorem makeIn_yields (view : View) (components : List α) (tag : Option AlgebraTag) :
    Yields (fun x => x.components = components ∧ x.Balanced) (makeIn view components tag) := by
  unfold makeIn
  split
  case isFalse => exact .error _
  case isTrue power =>
    obtain ⟨k, length⟩ := isPowerOfTwo_iff.1 power
    have balanced (tag : AlgebraTag) :
        Yields (fun x => x.components = components ∧ x.Balanced) (ofTag view tag components) :=
      (ofTag_yields view tag components).mono fun x ⟨same, _⟩ =>
        ⟨same, balanced_of_length (same ▸ length)⟩
    cases tag with
    | some tag => exact balanced tag
    | none => exact (AlgebraTag.standard_yields components.length).bind fun tag _ => balanced tag

/-- A number of exactly one length is balanced if the length is. -/
theorem makeExact_yields (view : View) {tag : AlgebraTag} (regular : tag.Regular)
    (components : List α) :
    Yields (fun x => x.components = components ∧ x.Balanced) (makeExact view tag components) := by
  unfold makeExact
  split
  case isTrue => exact .ok ⟨rfl, balanced_iff_regular.2 regular⟩
  case isFalse => exact .error _

/-- A number with a tag of one's own choice has as many components as the tag says. -/
theorem make_yields (components : List α) (tag : Option AlgebraTag) :
    Yields (fun x => x.components = components ∧ (x.Balanced ↔ ∀ t, tag = some t → t.Regular))
      (make components tag) := by
  unfold make
  cases tag with
  | some tag =>
    refine (ofTag_yields _ tag components).mono fun x ⟨same, tagged⟩ => ⟨same, ?_⟩
    simp [balanced_iff_regular, tagged]
  | none =>
    refine (AlgebraTag.standard_yields components.length).bind fun tag ⟨_, regular⟩ => ?_
    refine (ofTag_yields _ tag components).mono fun x ⟨same, tagged⟩ => ⟨same, ?_⟩
    simp [balanced_iff_regular, tagged, regular]

theorem make_yields_balanced (components : List α) {tag : Option AlgebraTag}
    (regular : ∀ t, tag = some t → t.Regular) :
    Yields (fun x => x.components = components ∧ x.Balanced) (make components tag) :=
  (make_yields components tag).mono fun _ ⟨same, balanced⟩ => ⟨same, balanced.2 regular⟩

/-- Halves double to a balanced number, whatever numbers they are. -/
theorem ofHalves_yields (a b : Number α) :
    Yields (fun x => x.components = a.components ++ b.components ∧ x.Balanced) (ofHalves a b) := by
  unfold ofHalves
  split
  case isTrue => exact .error _
  case isFalse =>
    refine (AlgebraTag.standard_yields _).bind fun tag ⟨_, regular⟩ => make_yields_balanced _ ?_
    rintro _ ⟨⟩
    exact regular

end Making

section Operations

variable {x y z : Number α}

theorem Balanced.of_algebra_eq (balanced : x.Balanced) (same : z.algebra = x.algebra) :
    z.Balanced := by
  rw [balanced_iff_regular, same, ← balanced_iff_regular]
  exact balanced

/-- What follows a comparison of the algebras, where it comes to an end if they are the same. -/
theorem yields_of_sameAlgebra (balanced : x.Balanced) (operation : String)
    {f : PLift (x.algebra = y.algebra) → Except Fault (Number α)}
    (ends : ∀ same, ∃ z, f same = .ok z ∧ z.algebra = x.algebra) :
    Yields Balanced (checkSameAlgebra operation x y >>= f) := by
  unfold checkSameAlgebra
  split
  case isTrue same =>
    obtain ⟨z, found, tagged⟩ := ends ⟨same⟩
    exact .inl ⟨z, found, balanced.of_algebra_eq tagged⟩
  case isFalse => exact .error _

theorem add_yields [Add α] (balanced : x.Balanced) (y : Number α) : Yields Balanced (x.add y) :=
  yields_of_sameAlgebra balanced _ fun _ => ⟨_, rfl, rfl⟩

theorem sub_yields [Sub α] (balanced : x.Balanced) (y : Number α) : Yields Balanced (x.sub y) :=
  yields_of_sameAlgebra balanced _ fun _ => ⟨_, rfl, rfl⟩

theorem halves_yields (x : Number α) :
    Yields (fun parts => parts.1.Balanced ∧ parts.2.Balanced) x.halves := by
  unfold halves
  split
  case isTrue => exact .error _
  case isFalse =>
    refine (AlgebraTag.standard_yields _).bind fun tag ⟨_, regular⟩ => ?_
    have tagged : ∀ t, some tag = some t → t.Regular := by
      rintro _ ⟨⟩
      exact regular
    exact (make_yields_balanced _ tagged).bind fun a ⟨_, front⟩ =>
      (make_yields_balanced _ tagged).bind fun b ⟨_, back⟩ => .ok ⟨front, back⟩

theorem exists_conjugate [Neg α] (balanced : x.Balanced) :
    ∃ z, x.conjugate = .ok z ∧ z.algebra = x.algebra := by
  obtain ⟨k, length, -⟩ := balanced
  unfold conjugate
  split
  case h_1 fault refused =>
    cases parts : x.components with
    | nil =>
      rw [parts] at length
      exact absurd length (Nat.two_pow_pos k).ne
    | cons c cs =>
      rw [parts] at refused
      cases refused
  case h_2 => exact ⟨_, rfl, rfl⟩

theorem inverse_yields [Zero α] [Add α] [Neg α] [Mul α] [Div α] (balanced : x.Balanced) :
    Yields Balanced x.inverse := by
  obtain ⟨z, found, tagged⟩ := exists_conjugate balanced
  rw [inverse, found, ok_bind]
  exact .ok (balanced.of_algebra_eq tagged)

variable [Zero α] [Add α] [Sub α] [Neg α] [Mul α]

/-- The halving of a balanced factor reaches its single components. -/
theorem exists_product (balanced : x.Balanced) (y : Number α) :
    ∃ z, x.product y = .ok z ∧ z.algebra = x.algebra := by
  obtain ⟨k, length, -⟩ := balanced
  unfold product
  split
  case h_1 fault refused =>
    rw [productOfLists, length, level?_two_pow] at refused
    cases refused
  case h_2 => exact ⟨_, rfl, rfl⟩

theorem mul_yields (balanced : x.Balanced) (y : Number α) : Yields Balanced (x.mul y) :=
  yields_of_sameAlgebra balanced _ fun _ => exists_product balanced y

theorem exists_mul (balanced : x.Balanced) (same : x.algebra = y.algebra) :
    ∃ z, x.mul y = .ok z ∧ z.Balanced := by
  obtain ⟨z, found, tagged⟩ := exists_product balanced y
  refine ⟨z, ?_, balanced.of_algebra_eq tagged⟩
  rw [mul, checkSameAlgebra, dif_pos same, ok_bind, found]

theorem div_yields [Div α] (balanced : x.Balanced) (y : Number α) : Yields Balanced (x.div y) := by
  refine yields_of_sameAlgebra balanced _ fun same => ?_
  obtain ⟨c, conjugate, -⟩ := exists_conjugate (balanced.of_algebra_eq same.down.symm)
  obtain ⟨z, found, tagged⟩ := exists_product balanced c
  simp only [conjugate, found, ok_bind]
  exact ⟨_, rfl, tagged⟩

end Operations

/-- How a number is obtained: made from components in one of the ways there are, or by operations on
such numbers. -/
inductive Construction (α : Type) where
  | listed (view : View) (components : List α) (tag : Option AlgebraTag)
  | octonion (components : List α)
  | sedenion (components : List α)
  | made (components : List α) (tag : Option AlgebraTag)
  | doubled (a b : Construction α)
  | add (a b : Construction α)
  | sub (a b : Construction α)
  | mul (a b : Construction α)
  | div (a b : Construction α)
  | conjugate (a : Construction α)
  | neg (a : Construction α)
  | scale (a : Construction α) (factor : α)
  | inverse (a : Construction α)
  | front (a : Construction α)
  | back (a : Construction α)

namespace Construction

/-- Whether all tags that are taken as they come are those of algebras of the tower. -/
def Regular : Construction α → Prop
  | made _ tag => ∀ t, tag = some t → t.Regular
  | doubled a b | add a b | sub a b | mul a b | div a b => a.Regular ∧ b.Regular
  | conjugate a | neg a | scale a _ | inverse a | front a | back a => a.Regular
  | listed .. | octonion _ | sedenion _ => True

variable [Zero α] [Add α] [Sub α] [Neg α] [Mul α] [Div α]

def build : Construction α → Except Fault (Number α)
  | listed view components tag => makeIn view components tag
  | octonion components => makeExact .octonion .octonion components
  | sedenion components => makeExact .sedenion .sedenion components
  | made components tag => make components tag
  | doubled a b => do ofHalves (← a.build) (← b.build)
  | add a b => do (← a.build).add (← b.build)
  | sub a b => do (← a.build).sub (← b.build)
  | mul a b => do (← a.build).mul (← b.build)
  | div a b => do (← a.build).div (← b.build)
  | conjugate a => do (← a.build).conjugate
  | neg a => do return (← a.build).neg
  | scale a factor => do return (← a.build).scale factor
  | inverse a => do (← a.build).inverse
  | front a => do return (← (← a.build).halves).1
  | back a => do return (← (← a.build).halves).2

/-- Whatever is done with balanced numbers, the results are balanced. -/
theorem build_yields (c : Construction α) (regular : c.Regular) : Yields Balanced c.build := by
  have binary {a b : Construction α} {f : Number α → Number α → Except Fault (Number α)}
      (left : Yields Balanced a.build) (right : Yields Balanced b.build)
      (ends : ∀ x y, x.Balanced → Yields Balanced (f x y)) :
      Yields Balanced (a.build >>= fun x => b.build >>= fun y => f x y) :=
    left.bind fun x hx => right.bind fun y _ => ends x y hx
  induction c with
  | listed view components tag => exact (makeIn_yields view components tag).mono fun _ h => h.2
  | octonion components => exact (makeExact_yields _ ⟨3, rfl⟩ components).mono fun _ h => h.2
  | sedenion components => exact (makeExact_yields _ ⟨4, rfl⟩ components).mono fun _ h => h.2
  | made components tag => exact (make_yields_balanced components regular).mono fun _ h => h.2
  | doubled a b iha ihb =>
    exact binary (iha regular.1) (ihb regular.2) fun x y _ => (ofHalves_yields x y).mono fun _ h =>
      h.2
  | add a b iha ihb => exact binary (iha regular.1) (ihb regular.2) fun _ y hx => add_yields hx y
  | sub a b iha ihb => exact binary (iha regular.1) (ihb regular.2) fun _ y hx => sub_yields hx y
  | mul a b iha ihb => exact binary (iha regular.1) (ihb regular.2) fun _ y hx => mul_yields hx y
  | div a b iha ihb => exact binary (iha regular.1) (ihb regular.2) fun _ y hx => div_yields hx y
  | conjugate a ih =>
    refine (ih regular).bind fun x hx => ?_
    obtain ⟨z, found, tagged⟩ := exists_conjugate hx
    exact .inl ⟨z, found, hx.of_algebra_eq tagged⟩
  | neg a ih => exact (ih regular).bind fun x hx => .ok (hx.of_algebra_eq rfl)
  | scale a factor ih => exact (ih regular).bind fun x hx => .ok (hx.of_algebra_eq rfl)
  | inverse a ih => exact (ih regular).bind fun x hx => inverse_yields hx
  | front a ih => exact (ih regular).bind fun x _ => (halves_yields x).bind fun _ h => .ok h.1
  | back a ih => exact (ih regular).bind fun x _ => (halves_yields x).bind fun _ h => .ok h.2

end Construction

/-- A tag of one's own choice is taken with any number of components that it names. -/
theorem exists_make {components : List α} {tag : AlgebraTag}
    (named : tag.dimension = components.length) : ∃ x, make components (some tag) = .ok x := by
  refine ⟨⟨.ofTag tag, tag, components, named.symm⟩, ?_⟩
  simp only [make, ofTag, ok_bind, dif_pos named.symm]

variable [Zero α] [Add α] [Sub α] [Neg α] [Mul α] [Div α]

/-- Numbers are balanced however they are obtained. Whoever makes one from components, with any tag
or none, gets a fault of the algebra or a number whose components are a power of two in number, as
its tag says; only a number that is made in the form of a tag of one's own choice has whatever
number of components the tag names. Starting from tags of the tower, all that operations lead to is
balanced, and the product of balanced numbers of one algebra comes to an end. -/
theorem constructions_are_balanced :
    (∀ (view : View) (components : List α) (tag : Option AlgebraTag),
        Yields (fun x => x.components = components ∧ x.Balanced) (makeIn view components tag)) ∧
      (∀ components : List α,
        Yields (fun x => x.components = components ∧ x.Balanced)
          (makeExact .octonion .octonion components) ∧
        Yields (fun x => x.components = components ∧ x.Balanced)
          (makeExact .sedenion .sedenion components)) ∧
      (∀ a b : Number α,
        Yields (fun x => x.components = a.components ++ b.components ∧ x.Balanced) (ofHalves a b)) ∧
      (∀ (components : List α) (tag : Option AlgebraTag),
        Yields (fun x => x.components = components ∧ (x.Balanced ↔ ∀ t, tag = some t → t.Regular))
          (make components tag) ∧
        ∀ t, tag = some t → t.dimension = components.length → ∃ x, make components tag = .ok x) ∧
      (∀ c : Construction α, c.Regular → Yields Balanced c.build) ∧
      ∀ x y : Number α, x.Balanced → x.algebra = y.algebra → ∃ z, x.mul y = .ok z ∧ z.Balanced := by
  refine ⟨makeIn_yields, fun components => ⟨?_, ?_⟩, ofHalves_yields, fun components tag =>
    ⟨?_, ?_⟩, Construction.build_yields, fun x y => exists_mul⟩
  · exact makeExact_yields _ ⟨3, rfl⟩ components
  · exact makeExact_yields _ ⟨4, rfl⟩ components
  · exact make_yields components tag
  · rintro t rfl named
    exact exists_make named

/-- The first half of a sedenion divided by an octonion that is doubled from quaternions. -/
def quotientOfHalf : Construction ℚ :=
  .div (.front (.sedenion [1, 2, 3, 4, 5, 6, 7, 8, 0, 0, 0, 0, 0, 0, 0, 0]))
    (.doubled (.listed .general [0, 1, 0, 0] none) (.made [1, 0, 0, 0] (some .quaternion)))

theorem constructions_are_balanced_quotientOfHalf :
    quotientOfHalf.Regular ∧ ∃ x y, quotientOfHalf.build = .ok x ∧ x.Balanced ∧ x.mul x = .ok y ∧
      y.Balanced := by
  obtain ⟨-, -, -, -, build, product⟩ := constructions_are_balanced (α := ℚ)
  have regular : quotientOfHalf.Regular := by
    refine ⟨trivial, trivial, ?_⟩
    rintro _ ⟨⟩
    exact ⟨2, rfl⟩
  have succeeds : quotientOfHalf.build.toOption.isSome := by decide +kernel
  rcases build quotientOfHalf regular with ⟨x, built, balanced⟩ | ⟨cause, refused⟩
  · obtain ⟨y, found, balanced'⟩ := product x x balanced rfl
    exact ⟨regular, x, y, built, balanced, found, balanced'⟩
  · rw [refused] at succeeds
    cases succeeds

/-- A tag that names three components makes a number of three components, which has no product. A
number in a given form is refused for its dimension. -/
theorem make_three_components :
    ∃ x : Number ℚ, make [1, 2, 3] (some ⟨"Tri", 3⟩) = .ok x ∧ x.components.length = 3 ∧
      ¬ x.Balanced ∧ x.mul x = .error (.value (.assignment [2] [1])) ∧
      (makeIn .general [1, 2, 3] (some ⟨"Tri", 3⟩) : Except Fault (Number ℚ)) = .error
        (.algebra (.dimension 3)) := by
  refine ⟨⟨.general, ⟨"Tri", 3⟩, [1, 2, 3], rfl⟩, rfl, rfl, ?_, rfl, rfl⟩
  rintro ⟨k, length, -⟩
  have power : isPowerOfTwo 3 = true := isPowerOfTwo_iff.2 ⟨k, length⟩
  exact absurd power (by decide)

end Number

end TensorCalculus
