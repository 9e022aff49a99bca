/-!
# The doubling tower

Level 0 holds the scalars, and each level holds the pairs of values of the level below. One
recursive product serves all levels:

    (a, b) (c, d) = (a c - conj d b, d a + b conj c)

A value of level `k` has `2 ^ k` components, which `toList` lays out in order.
-/

namespace TensorCalculus

-- Powers of natural numbers are those of `Nat.pow`, whatever other instances are in sight.
attribute [local instance (2000)] instPowNat

inductive Tower (α : Type) : Nat → Type where
  | scalar (x : α) : Tower α 0
  | pair {k : Nat} (a b : Tower α k) : Tower α (k + 1)

namespace Tower

variable {α β : Type}

def map (f : α → β) : {k : Nat} → Tower α k → Tower β k
  | _, scalar x => scalar (f x)
  | _, pair a b => pair (a.map f) (b.map f)

def add [Add α] : {k : Nat} → Tower α k → Tower α k → Tower α k
  | _, scalar x, scalar y => scalar (x + y)
  | _, pair a b, pair c d => pair (add a c) (add b d)

def sub [Sub α] : {k : Nat} → Tower α k → Tower α k → Tower α k
  | _, scalar x, scalar y => scalar (x - y)
  | _, pair a b, pair c d => pair (sub a c) (sub b d)

def neg [Neg α] {k : Nat} (x : Tower α k) : Tower α k :=
  x.map (-·)

/-- Keeps the first component and negates all others. -/
def conj [Neg α] : {k : Nat} → Tower α k → Tower α k
  | _, scalar x => scalar x
  | _, pair a b => pair (conj a) (neg b)

def mul [Add α] [Sub α] [Neg α] [Mul α] : {k : Nat} → Tower α k → Tower α k → Tower α k
  | _, scalar x, scalar y => scalar (x * y)
  | _, pair a b, pair c d => pair (sub (mul a c) (mul (conj d) b)) (add (mul d a) (mul b (conj c)))

def toList : {k : Nat} → Tower α k → List α
  | _, scalar x => [x]
  | _, pair a b => toList a ++ toList b

/-- The value with given components; missing ones count as zero. -/
def ofList [Zero α] : (k : Nat) → List α → Tower α k
  | 0, xs => scalar (xs.head?.getD 0)
  | k + 1, xs => pair (ofList k (xs.take (2 ^ k))) (ofList k (xs.drop (2 ^ k)))

@[simp]
theorem length_toList {k : Nat} (x : Tower α k) : x.toList.length = 2 ^ k := by
  induction x with
  | scalar x => rfl
  | pair a b iha ihb => simp [toList, iha, ihb, Nat.pow_succ, Nat.mul_two]

@[simp]
theorem ofList_toList [Zero α] {k : Nat} (x : Tower α k) : ofList k x.toList = x := by
  induction x with
  | scalar x => rfl
  | pair a b iha ihb =>
    simp [toList, ofList, iha, ihb]

theorem toList_ofList [Zero α] {k : Nat} {xs : List α} (h : xs.length = 2 ^ k) :
    (ofList k xs).toList = xs := by
  induction k generalizing xs with
  | zero =>
    match xs, h with
    | [x], _ => rfl
  | succ k ih =>
    rw [Nat.pow_succ] at h
    have front : (xs.take (2 ^ k)).length = 2 ^ k := by simp; omega
    have back : (xs.drop (2 ^ k)).length = 2 ^ k := by simp; omega
    simp [ofList, toList, ih front, ih back]

theorem toList_map (f : α → β) {k : Nat} (x : Tower α k) : (x.map f).toList = x.toList.map f := by
  induction x with
  | scalar x => rfl
  | pair a b iha ihb => simp [map, toList, iha, ihb]

theorem toList_ne_nil {k : Nat} (x : Tower α k) : x.toList ≠ [] := by
  intro empty
  have size := x.length_toList
  rw [empty] at size
  exact absurd size (Nat.ne_of_lt (Nat.pow_pos (by decide)))

theorem toList_conj [Neg α] {k : Nat} (x : Tower α k) :
    x.conj.toList = x.toList.head?.toList ++ x.toList.tail.map (-·) := by
  induction x with
  | scalar x => rfl
  | pair a b iha =>
    obtain ⟨y, ys, hy⟩ := List.exists_cons_of_ne_nil a.toList_ne_nil
    simp [conj, toList, iha, neg, toList_map, hy]

end Tower

end TensorCalculus
