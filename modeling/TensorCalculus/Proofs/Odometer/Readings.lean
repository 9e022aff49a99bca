import TensorCalculus.Odometer
import TensorCalculus.Proofs.Layout.Coordinates

/-!
# The readings of an odometer

The offsets that an odometer carries along are those of its digits: every wheel has moved every
buffer by its digit times its step. A turn leads from one reading to the lexicographically next one,
so that a run visits all readings in lexicographic order, each of them once. -/

namespace TensorCalculus

open TensorCalculus.Layout

namespace Offsets

/-- The offsets of wheels that show given digits. -/
def reading (o : Offsets) : List Wheel → List Nat → Offsets
  | w :: ws, d :: ds => (o.move w d).reading ws ds
  | _, _ => o

/-- Whether a wheel has a step for every operand. -/
def Covers (w : Wheel) (o : Offsets) : Prop :=
  o.operands.length ≤ w.steps.length

theorem move_zero {o : Offsets} {w : Wheel} (covers : Covers w o) : o.move w 0 = o := by
  have operands : List.zipWith (fun place step => place + 0 * step) o.operands w.steps =
      o.operands := by
    apply List.ext_getElem
    · have enough : o.operands.length ≤ w.steps.length := covers
      simpa using enough
    · intro i _ _
      simp
  rw [move, operands, Int.zero_mul, Int.add_zero]

theorem move_move (o : Offsets) (w : Wheel) (a b : Int) :
    (o.move w a).move w b = o.move w (a + b) := by
  have operands : List.zipWith (fun place step => place + b * step)
      (List.zipWith (fun place step => place + a * step) o.operands w.steps) w.steps =
      List.zipWith (fun place step => place + (a + b) * step) o.operands w.steps := by
    apply List.ext_getElem
    · simp
    · intro i _ _
      simp only [List.getElem_zipWith]
      ring
  simp only [move, operands, Offsets.mk.injEq, true_and]
  ring

theorem Covers.move {o : Offsets} {v : Wheel} (w : Wheel) (times : Int) (covers : Covers v o) :
    Covers v (o.move w times) := by
  simp only [Covers, Offsets.move, List.length_zipWith] at covers ⊢
  omega

theorem reading_zeros {o : Offsets} {ws : List Wheel} (covers : ∀ w ∈ ws, Covers w o) :
    o.reading ws (List.replicate ws.length 0) = o := by
  induction ws with
  | nil => rfl
  | cons w ws ih =>
    have here := covers w List.mem_cons_self
    rw [List.length_cons, List.replicate_succ, reading, Nat.cast_zero, move_zero here]
    exact ih fun v hv => covers v (List.mem_cons_of_mem w hv)

/-- Every place has moved by the sum of all steps, each taken as often as the digit of its wheel
says. -/
theorem reading_map {ι κ : Type} {wheel : ι → Wheel} {step : κ → ι → Int} (rows : List κ)
    (steps : ∀ p, (wheel p).steps = rows.map (step · p)) (ps : List ι) (digits : List Nat)
    (starts : κ → Int)
    (out : Int) :
    reading ⟨rows.map starts, out⟩ (ps.map wheel) digits =
      ⟨rows.map fun row => starts row + (List.zipWith (fun p d => ↑d * step row p) ps digits).sum,
        out + (List.zipWith (fun p d => ↑d * (wheel p).output) ps digits).sum⟩ := by
  induction ps generalizing digits starts out with
  | nil => simp [reading]
  | cons p ps ih =>
    cases digits with
    | nil => simp [reading]
    | cons d ds =>
      have moved : move ⟨rows.map starts, out⟩ (wheel p) d =
          ⟨rows.map fun row => starts row + d * step row p, out + d * (wheel p).output⟩ := by
        simp only [move, steps, List.zipWith_map, List.zipWith_self]
      rw [List.map_cons, reading, moved, ih]
      simp only [List.zipWith_cons_cons, List.sum_cons, Int.add_assoc]

end Offsets

namespace Odometer

open Offsets (Covers)

def sizes (ws : List Wheel) : List Nat :=
  ws.map fun w => w.size.toNat

/-- The readings from given digits on. -/
def remaining : List Nat → List Nat → List (List Nat)
  | n :: ns, d :: ds =>
    (remaining ns ds).map (d :: ·) ++
      (List.range' (d + 1) (n - (d + 1))).flatMap fun e => (coordinatesFrom ns).map (e :: ·)
  | _, _ => [[]]

theorem remaining_zeros {ns : List Nat} (positive : ∀ n ∈ ns, 0 < n) :
    remaining ns (List.replicate ns.length 0) = coordinatesFrom ns := by
  induction ns with
  | nil => rfl
  | cons n ns ih =>
    have turned : List.range n = 0 :: List.range' 1 (n - 1) := by
      rw [List.range_eq_range']
      obtain ⟨m, rfl⟩ := Nat.exists_eq_succ_of_ne_zero (positive n List.mem_cons_self).ne'
      rfl
    rw [List.length_cons, List.replicate_succ, remaining, coordinatesFrom, turned,
      List.flatMap_cons, ih fun m hm => positive m (List.mem_cons_of_mem n hm), Nat.zero_add]

theorem inRange_zeros {ns : List Nat} (positive : ∀ n ∈ ns, 0 < n) :
    InRange ns (List.replicate ns.length 0) := by
  induction ns with
  | nil => trivial
  | cons n ns ih =>
    exact ⟨positive n List.mem_cons_self, ih fun m hm => positive m (List.mem_cons_of_mem n hm)⟩

/-- A wheel that can still advance leaves the readings with its next digit in front. -/
theorem remaining_cons_of_last {n d : Nat} {ns ds : List Nat} (positive : ∀ m ∈ ns, 0 < m)
    (room : d + 1 < n) (last : remaining ns ds = [ds]) :
    remaining (n :: ns) (d :: ds) =
      (d :: ds) :: remaining (n :: ns) ((d + 1) :: List.replicate ns.length 0) := by
  have advance :
      List.range' (d + 1) (n - (d + 1)) = (d + 1) :: List.range' (d + 2) (n - (d + 2)) := by
    obtain ⟨k, hk⟩ : ∃ k, n - (d + 1) = k + 1 := ⟨n - (d + 2), by omega⟩
    rw [hk, List.range'_succ]
    congr 2
    omega
  simp only [remaining, last, remaining_zeros positive, advance, List.map_cons, List.map_nil,
    List.flatMap_cons, List.singleton_append]

section Turn

variable {w : Wheel} {ws : List Wheel} {digit : Int} {digits next : List Int} {o o' : Offsets}

/-- A wheel advances when those behind it have wrapped around. -/
theorem turn_of_carry (behind : turn ws digits o = ⟨true, next, o'⟩) (room : digit + 1 < w.size) :
    turn (w :: ws) (digit :: digits) o = ⟨false, (digit + 1) :: next, o'.move w 1⟩ := by
  rw [turn, behind]
  simp [room]

theorem turn_of_wrap (behind : turn ws digits o = ⟨true, next, o'⟩) (full : ¬ digit + 1 < w.size) :
    turn (w :: ws) (digit :: digits) o = ⟨true, 0 :: next, o'.move w (-(w.size - 1))⟩ := by
  rw [turn, behind]
  simp [full]

theorem turn_of_rest (behind : turn ws digits o = ⟨false, next, o'⟩) :
    turn (w :: ws) (digit :: digits) o = ⟨false, digit :: next, o'⟩ := by
  rw [turn, behind]
  rfl

end Turn

theorem sizes_pos {ws : List Wheel} (positive : ∀ w ∈ ws, 0 < w.size) : ∀ n ∈ sizes ws, 0 < n := by
  intro n hn
  obtain ⟨w, hw, rfl⟩ := List.mem_map.1 hn
  have := positive w hw
  omega

/-- One turn: either every wheel wraps around and the digits were the last ones, or the digits are
followed by those of the turn. -/
theorem turn_cases {ws : List Wheel} {digits : List Nat} (o : Offsets)
    (positive : ∀ w ∈ ws, 0 < w.size) (covers : ∀ w ∈ ws, Covers w o)
    (inside : InRange (sizes ws) digits) :
    (turn ws (digits.map Int.ofNat) (o.reading ws digits) =
        ⟨true, (List.replicate ws.length 0).map Int.ofNat, o⟩ ∧
      remaining (sizes ws) digits = [digits]) ∨
    ∃ next, InRange (sizes ws) next ∧
      turn ws (digits.map Int.ofNat) (o.reading ws digits) =
        ⟨false, next.map Int.ofNat, o.reading ws next⟩ ∧
      remaining (sizes ws) digits = digits :: remaining (sizes ws) next := by
  induction ws generalizing digits o with
  | nil =>
    cases digits with
    | nil => exact .inl ⟨rfl, rfl⟩
    | cons d ds => exact inside.elim
  | cons w ws ih =>
    cases digits with
    | nil => exact inside.elim
    | cons d ds =>
      have above := positive w List.mem_cons_self
      have covered := covers w List.mem_cons_self
      have positives : ∀ v ∈ ws, 0 < v.size := fun v hv => positive v (List.mem_cons_of_mem w hv)
      have coverings : ∀ v ∈ ws, Covers v o := fun v hv => covers v (List.mem_cons_of_mem w hv)
      obtain ⟨front, back⟩ := inside
      have front : d < w.size.toNat := front
      rcases ih (o.move w d) positives (fun v hv => (coverings v hv).move w d) back with
        ⟨step, last⟩ | ⟨next, within, step, rest⟩
      · by_cases room : (d : Int) + 1 < w.size
        · have room' : d + 1 < w.size.toNat := by omega
          refine .inr ⟨(d + 1) :: List.replicate ws.length 0, ⟨room', ?_⟩, ?_, ?_⟩
          · simpa [sizes] using inRange_zeros (sizes_pos positives)
          · rw [List.map_cons, Offsets.reading, Int.ofNat_eq_natCast, turn_of_carry step room,
              Offsets.reading, Nat.cast_add, Nat.cast_one,
              Offsets.reading_zeros fun v hv => (coverings v hv).move w ((d : Int) + 1),
              Offsets.move_move]
            rfl
          · simpa [sizes] using remaining_cons_of_last (sizes_pos positives) room' last
        · have home : (d : Int) + -(w.size - 1) = 0 := by omega
          have spent : w.size.toNat - (d + 1) = 0 := by omega
          left
          constructor
          · rw [List.map_cons, Offsets.reading, Int.ofNat_eq_natCast, turn_of_wrap step room,
              Offsets.move_move, home, Offsets.move_zero covered]
            rfl
          · simp only [sizes, List.map_cons, remaining] at last ⊢
            rw [last, spent]
            rfl
      · refine .inr ⟨d :: next, ⟨front, within⟩, ?_, ?_⟩
        · rw [List.map_cons, Offsets.reading, turn_of_rest step]
          rfl
        · simp only [sizes, List.map_cons, remaining] at rest ⊢
          rw [rest]
          rfl

/-- A run shows the readings that remain, as many of them as it has fuel for, and stops by itself
after the last. -/
theorem visitsFrom_eq {ws : List Wheel} {o : Offsets} (positive : ∀ w ∈ ws, 0 < w.size)
    (covers : ∀ w ∈ ws, Covers w o) (fuel : Nat) {digits : List Nat}
    (inside : InRange (sizes ws) digits) :
    visitsFrom ws fuel (digits.map Int.ofNat) (o.reading ws digits) =
      ((remaining (sizes ws) digits).map (o.reading ws)).take fuel := by
  induction fuel generalizing digits with
  | zero => rfl
  | succ fuel ih =>
    rcases turn_cases o positive covers inside with ⟨step, last⟩ | ⟨next, within, step, rest⟩
    · rw [visitsFrom, step, last, List.map_singleton, List.take_succ_cons, List.take_nil]
      rfl
    · rw [visitsFrom, step, rest]
      exact congrArg (_ :: ·) (ih within)

/-- A run from the first reading on. -/
theorem visitsFrom_zeros {ws : List Wheel} {o : Offsets} (positive : ∀ w ∈ ws, 0 < w.size)
    (covers : ∀ w ∈ ws, Covers w o) (fuel : Nat) :
    visitsFrom ws fuel (List.replicate ws.length 0) o =
      ((coordinates (sizes ws)).map (o.reading ws)).take fuel := by
  have run := visitsFrom_eq positive covers fuel (inRange_zeros (sizes_pos positive))
  have length : (sizes ws).length = ws.length := by simp [sizes]
  rw [remaining_zeros (sizes_pos positive), length, Offsets.reading_zeros covers,
    List.map_replicate] at run
  rw [coordinates_eq_coordinatesFrom]
  exact run

theorem count_eq {ws : List Wheel} (positive : ∀ w ∈ ws, 0 < w.size) :
    count ws = volume (sizes ws) := by
  have proper : ¬ ws.any (·.size = 0) := by
    simp only [List.any_eq_true, decide_eq_true_eq, not_exists, not_and]
    intro w hw
    exact (positive w hw).ne'
  rw [count, if_neg proper]
  induction ws with
  | nil => rfl
  | cons w ws ih =>
    have above := positive w List.mem_cons_self
    have rest := ih (fun v hv => positive v (List.mem_cons_of_mem w hv)) (by simp_all)
    simp only [List.map_cons, List.foldr_cons, sizes, volume_cons] at rest ⊢
    rw [rest, max_eq_left (by omega)]

/-- All readings are visited, in lexicographic order. Where a wheel shows no value there is no
reading. -/
theorem visits_eq {ws : List Wheel} {operands : Nat} (sized : ∀ w ∈ ws, 0 ≤ w.size)
    (covers : ∀ w ∈ ws, Covers w (.origin operands)) :
    visits ws operands = (coordinates (sizes ws)).map ((Offsets.origin operands).reading ws) := by
  by_cases empty : ∃ w ∈ ws, w.size = 0
  · have without : count ws = 0 := by
      rw [count, if_pos]
      simpa using empty
    have nothing : volume (sizes ws) = 0 := by
      obtain ⟨w, hw, zero⟩ := empty
      exact volume_eq_zero_of_mem (List.mem_map.2 ⟨w, hw, by simp [zero]⟩)
    rw [visits, without, coordinates, if_pos nothing]
    rfl
  · have positive : ∀ w ∈ ws, 0 < w.size := fun w hw =>
      lt_of_le_of_ne (sized w hw) fun zero => empty ⟨w, hw, zero.symm⟩
    rw [visits, visitsFrom_zeros positive covers, count_eq positive, List.take_of_length_le]
    rw [List.length_map, length_coordinates]

end Odometer

end TensorCalculus
