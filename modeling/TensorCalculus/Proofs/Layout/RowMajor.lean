import TensorCalculus.Proofs.Layout.Coordinates
import TensorCalculus.Proofs.Outcome

/-!
# Places in order

Coordinates that are whole numbers lie within a shape when there is one for every axis, neither
negative nor past the end of it. They lie one to one on the places of the buffer, and the order of
the places is the lexicographic order of the coordinates. All others are refused as out of bounds,
whichever axis they miss, and before anything is read. -/

namespace TensorCalculus.Layout

open TensorCalculus.Outcome TensorCalculus.Text

/-- Whether there is one coordinate for every axis and each lies on its axis. -/
def Within (shape coords : List Int) : Prop :=
  List.Forall₂ (fun d c => 0 ≤ c ∧ c < d) shape coords

theorem within_cons_iff {d c : Int} {ds cs : List Int} :
    Within (d :: ds) (c :: cs) ↔ (0 ≤ c ∧ c < d) ∧ Within ds cs :=
  List.forall₂_cons

/-- Coordinates within a shape of natural numbers are natural numbers. -/
theorem within_cast_iff {shape : List Nat} {coords : List Int} :
    Within (shape.map Int.ofNat) coords ↔ ∃ c, InRange shape c ∧ coords = c.map Int.ofNat := by
  induction shape generalizing coords with
  | nil =>
    rw [List.map_nil, Within, List.forall₂_nil_left_iff]
    constructor
    · rintro rfl
      exact ⟨[], trivial, rfl⟩
    · rintro ⟨c, inside, rfl⟩
      rw [List.length_eq_zero_iff.1 inside.length_eq, List.map_nil]
  | cons d ds ih =>
    cases coords with
    | nil =>
      constructor
      · intro within
        cases within
      · rintro ⟨c, inside, same⟩
        rw [List.map_eq_nil_iff.1 same.symm] at inside
        exact inside.elim
    | cons c cs =>
      rw [List.map_cons, within_cons_iff, ih]
      constructor
      · rintro ⟨⟨nonnegative, below⟩, ns, inside, rfl⟩
        obtain ⟨n, rfl⟩ := Int.eq_ofNat_of_zero_le nonnegative
        exact ⟨n :: ns, ⟨Int.ofNat_lt.1 below, inside⟩, rfl⟩
      · rintro ⟨ns, inside, same⟩
        cases ns with
        | nil => cases same
        | cons n ns =>
          rw [List.map_cons, List.cons.injEq] at same
          obtain ⟨rfl, rfl⟩ := same
          exact ⟨⟨Int.natCast_nonneg n, Int.ofNat_lt.2 inside.1⟩, ns, inside.2, rfl⟩

/-- A leading coordinate counts for more than all that follow. -/
theorem offset_lt_of_lt {shape a b : List Nat} (ha : InRange shape a) (hb : InRange shape b)
    (before : a < b) : offset shape a < offset shape b := by
  induction shape generalizing a b with
  | nil =>
    rw [List.length_eq_zero_iff.1 ha.length_eq, List.length_eq_zero_iff.1 hb.length_eq] at before
    exact absurd before (lt_irrefl _)
  | cons d ds ih =>
    cases a with
    | nil => exact ha.elim
    | cons c cs =>
      cases b with
      | nil => exact hb.elim
      | cons e es =>
        rw [offset, offset]
        rcases List.cons_lt_cons_iff.1 before with leading | ⟨rfl, behind⟩
        · have inside := offset_lt_volume ha.2
          have step : (c + 1) * volume ds ≤ e * volume ds := Nat.mul_le_mul_right _ leading
          rw [Nat.add_mul, Nat.one_mul] at step
          omega
        · have rest := ih ha.2 hb.2 behind
          omega

theorem offset_lt_iff {shape a b : List Nat} (ha : InRange shape a) (hb : InRange shape b) :
    offset shape a < offset shape b ↔ a < b := by
  constructor
  · intro less
    rcases lt_trichotomy a b with before | rfl | after
    · exact before
    · exact absurd less (lt_irrefl _)
    · exact absurd (offset_lt_of_lt hb ha after) (Nat.lt_asymm less)
  · exact offset_lt_of_lt ha hb

theorem map_ofNat_lt_iff {a b : List Nat} : a.map Int.ofNat < b.map Int.ofNat ↔ a < b := by
  induction a generalizing b with
  | nil => cases b <;> simp
  | cons c cs ih =>
    cases b with
    | nil => simp
    | cons e es => simp [List.cons_lt_cons_iff, ih]

/-- A number that can be written has no more digits than it may have. -/
theorem isShort_toString {n : Int} (writable : isWritable n = true) :
    isShort (toString n) = true := by
  have few (m : Nat) (bound : m < 10 ^ digitLimit) :
      (Nat.toDigits 10 m).countP Char.isDigit ≤ digitLimit :=
    List.countP_le_length.trans ((Nat.length_toDigits_le_iff (by decide) (by decide)).2 bound)
  have bound := of_decide_eq_true writable
  apply decide_eq_true
  cases n with
  | ofNat m =>
    have written : (toString (Int.ofNat m)).toList = Nat.toDigits 10 m := Nat.toList_repr
    rw [written]
    exact few m bound
  | negSucc m =>
    have written : (toString (Int.negSucc m)).toList = '-' :: Nat.toDigits 10 (m + 1) :=
      (String.toList_append).trans (congrArg _ Nat.toList_repr)
    rw [written, List.countP_cons_of_neg (by decide)]
    exact few (m + 1) bound

/-- What misses an axis is out of bounds, and can be said to be as long as all numbers can be
written. -/
theorem locateFrom_of_not_within {shape coords : List Int} (axis : Nat)
    (count : coords.length = shape.length) (outside : ¬ Within shape coords) :
    ∃ cause, locateFrom .ok axis shape coords = .error (.bounds cause) ∧
      ((∀ n ∈ shape ++ coords, isWritable n = true) → cause.isWritable = true) := by
  induction shape generalizing coords axis with
  | nil =>
    rw [List.length_eq_zero_iff.1 count] at outside
    exact absurd .nil outside
  | cons d ds ih =>
    cases coords with
    | nil => cases count
    | cons c cs =>
      rw [locateFrom, ok_bind]
      by_cases here : 0 ≤ c ∧ c < d
      · rw [within_cons_iff, and_iff_right here] at outside
        obtain ⟨cause, refused, written⟩ := ih (axis + 1) (Nat.succ.inj count) outside
        rw [if_pos here, refused]
        refine ⟨cause, rfl, fun writable => written fun n hn => writable n ?_⟩
        simp only [List.mem_append, List.mem_cons] at hn ⊢
        tauto
      · rw [if_neg here]
        refine ⟨_, rfl, fun writable => ?_⟩
        have given : isWritable c = true := writable c (by simp)
        have size : isWritable d = true := writable d (by simp)
        simp only [BoundsFault.isWritable, given, isShort_toString size, Bool.and_self]

theorem flatOffset_of_not_within {shape coords : List Int} (outside : ¬ Within shape coords) :
    ∃ cause, flatOffset shape coords = .error (.bounds cause) ∧
      ((∀ n ∈ shape ++ coords, isWritable n = true) → cause.isWritable = true) := by
  rw [flatOffset, locate]
  split
  case isTrue count => exact locateFrom_of_not_within 0 count outside
  case isFalse => exact ⟨_, rfl, fun _ => rfl⟩

/-- The places that are found are those of coordinates in range. -/
theorem flatOffset_eq_ok_iff {shape : List Nat} {coords : List Int} {place : Int} :
    flatOffset (shape.map Int.ofNat) coords = .ok place ↔
      ∃ c, InRange shape c ∧ coords = c.map Int.ofNat ∧ place = (offset shape c : Nat) := by
  constructor
  · intro found
    have within : Within (shape.map Int.ofNat) coords := by
      by_contra outside
      obtain ⟨cause, refused, -⟩ := flatOffset_of_not_within outside
      rw [refused] at found
      cases found
    obtain ⟨c, inside, rfl⟩ := within_cast_iff.1 within
    rw [flatOffset_cast inside] at found
    exact ⟨c, inside, rfl, (Except.ok.inj found).symm⟩
  · rintro ⟨c, inside, rfl, rfl⟩
    exact flatOffset_cast inside

/-- Whether coordinates lie one to one and in order on the places of a buffer, all others being out
of bounds. That is what is said of them as long as it can be written. -/
structure RowMajor (shape : List Int) : Prop where
  exists_place : ∀ coords, Within shape coords →
    ∃ place, flatOffset shape coords = .ok place ∧ 0 ≤ place ∧ place < volume shape
  exists_coords : ∀ place, 0 ≤ place → place < volume shape →
    ∃ coords, Within shape coords ∧ flatOffset shape coords = .ok place
  injective : ∀ a b place, flatOffset shape a = .ok place → flatOffset shape b = .ok place → a = b
  increasing : ∀ a b i j, flatOffset shape a = .ok i → flatOffset shape b = .ok j → (a < b ↔ i < j)
  refused :
    ∀ coords, ¬ Within shape coords → ∃ cause, flatOffset shape coords = .error (.bounds cause) ∧
    ((∀ n ∈ shape ++ coords, isWritable n = true) → (Fault.bounds cause).kind = "IndexError")

theorem rowMajor_cast (shape : List Nat) : RowMajor (shape.map Int.ofNat) where
  exists_place coords within := by
    obtain ⟨c, inside, rfl⟩ := within_cast_iff.1 within
    refine ⟨_, flatOffset_cast inside, Int.natCast_nonneg _, ?_⟩
    rw [volume_cast]
    exact Int.ofNat_lt.2 (offset_lt_volume inside)
  exists_coords place nonnegative bound := by
    obtain ⟨n, rfl⟩ := Int.eq_ofNat_of_zero_le nonnegative
    rw [volume_cast] at bound
    obtain ⟨c, inside, rfl⟩ := exists_offset_eq (Int.ofNat_lt.1 bound)
    exact ⟨c.map Int.ofNat, within_cast_iff.2 ⟨c, inside, rfl⟩, flatOffset_cast inside⟩
  injective a b place left right := by
    obtain ⟨c, hc, rfl, rfl⟩ := flatOffset_eq_ok_iff.1 left
    obtain ⟨e, he, rfl, same⟩ := flatOffset_eq_ok_iff.1 right
    rw [offset_injective hc he (Int.ofNat_inj.1 same)]
  increasing a b i j left right := by
    obtain ⟨c, hc, rfl, rfl⟩ := flatOffset_eq_ok_iff.1 left
    obtain ⟨e, he, rfl, rfl⟩ := flatOffset_eq_ok_iff.1 right
    rw [map_ofNat_lt_iff, Int.ofNat_lt, offset_lt_iff hc he]
  refused coords outside := by
    obtain ⟨cause, refused, written⟩ := flatOffset_of_not_within outside
    refine ⟨cause, refused, fun writable => ?_⟩
    rw [Fault.kind_eq]
    exact if_pos (written writable)

/-- Every shape of sizes that are not negative is laid out in row-major order. -/
theorem rowMajor_of_nonneg {shape : List Int} (nonnegative : ∀ d ∈ shape, 0 ≤ d) :
    RowMajor shape := by
  rw [← map_ofNat_map_toNat nonnegative]
  exact rowMajor_cast _

end TensorCalculus.Layout
