import TensorCalculus.Proofs.Contraction.Cells

/-!
# Sums over symbols

In exact arithmetic the order in which a cell collects its products is immaterial. What the cell
holds is a sum over the values of the symbols that are summed over, taken symbol by symbol; such
sums may be reordered, nested, and moved past additive maps that do not depend on their symbols. -/

namespace TensorCalculus

open TensorCalculus.Layout

variable {K L : Type} [AddCommMonoid K] [AddCommMonoid L]

/-- The sum over all values of the listed symbols; the other symbols keep the values they have. -/
def sumOver (extent : Char → Nat) : List Char → ((Char → Nat) → K) → (Char → Nat) → K
  | [], f, σ => f σ
  | c :: cs, f, σ => ∑ i ∈ Finset.range (extent c), sumOver extent cs f (Function.update σ c i)

section Varies

/-- Values that keep to the sizes of the listed symbols and leave the others alone. -/
structure Varies (extent : Char → Nat) (cs : List Char) (σ τ : Char → Nat) : Prop where
  lt_extent : ∀ c ∈ cs, τ c < extent c
  eq_of_notMem : ∀ c, c ∉ cs → τ c = σ c

variable {extent : Char → Nat} {cs : List Char} {σ τ : Char → Nat}

theorem varies_nil_iff : Varies extent [] σ τ ↔ τ = σ := by
  constructor
  · rintro ⟨-, outside⟩
    exact funext fun c => outside c List.not_mem_nil
  · rintro rfl
    exact ⟨by simp, fun _ _ => rfl⟩

/-- A sum over one more symbol gives it each of its values in turn. -/
theorem varies_cons_iff {c : Char} :
    Varies extent (c :: cs) σ τ ↔ ∃ i < extent c, Varies extent cs (Function.update σ c i) τ := by
  constructor
  · rintro ⟨inside, outside⟩
    refine ⟨τ c, inside c List.mem_cons_self, fun e he => inside e (List.mem_cons_of_mem c he), ?_⟩
    intro e he
    by_cases same : e = c
    · rw [same, Function.update_self]
    · rw [Function.update_of_ne same]
      exact outside e (by simp [same, he])
  · rintro ⟨i, below, inside, outside⟩
    constructor
    · intro e he
      -- A symbol listed twice takes the value of its last place.
      by_cases later : e ∈ cs
      · exact inside e later
      · obtain rfl := (List.mem_cons.1 he).resolve_right later
        rw [outside e later, Function.update_self]
        exact below
    · intro e he
      rw [List.mem_cons, not_or] at he
      rw [outside e he.2, Function.update_of_ne he.1]

end Varies

section Laws

variable {extent : Char → Nat} {f g : (Char → Nat) → K} {σ : Char → Nat}

/-- A sum of ones counts the values of its symbols. -/
theorem sumOver_one (extent : Char → Nat) (cs : List Char) (σ : Char → Nat) :
    sumOver extent cs (fun _ => 1) σ = volume (cs.map extent) := by
  induction cs generalizing σ with
  | nil => rfl
  | cons c cs ih =>
    simp only [sumOver, ih, Finset.sum_const, Finset.card_range, smul_eq_mul]
    rfl

theorem sumOver_append (cs ds : List Char) (f : (Char → Nat) → K) (σ : Char → Nat) :
    sumOver extent (cs ++ ds) f σ = sumOver extent cs (sumOver extent ds f) σ := by
  induction cs generalizing σ with
  | nil => rfl
  | cons c cs ih => exact Finset.sum_congr rfl fun i _ => ih (Function.update σ c i)

theorem sumOver_swap (c e : Char) (cs : List Char) (f : (Char → Nat) → K) (σ : Char → Nat) :
    sumOver extent (c :: e :: cs) f σ = sumOver extent (e :: c :: cs) f σ := by
  by_cases same : c = e
  · rw [same]
  · simp only [sumOver]
    rw [Finset.sum_comm]
    refine Finset.sum_congr rfl fun i _ => Finset.sum_congr rfl fun j _ => ?_
    rw [Function.update_comm same]

/-- The order of the symbols is immaterial. -/
theorem sumOver_perm {cs ds : List Char} (rearranged : cs.Perm ds) (f : (Char → Nat) → K)
    (σ : Char → Nat) : sumOver extent cs f σ = sumOver extent ds f σ := by
  induction rearranged generalizing σ with
  | nil => rfl
  | cons c _ ih => exact Finset.sum_congr rfl fun i _ => ih _
  | swap c e cs => exact sumOver_swap e c cs f σ
  | trans _ _ ih ih' => rw [ih, ih']

/-- Only assignments count that keep to the sizes of the listed symbols and leave the others
alone. -/
theorem sumOver_congr {cs : List Char}
    (same : ∀ τ : Char → Nat, (∀ c ∈ cs, τ c < extent c) → (∀ c, c ∉ cs → τ c = σ c) → f τ = g τ) :
    sumOver extent cs f σ = sumOver extent cs g σ := by
  induction cs generalizing σ with
  | nil => exact same σ (by simp) fun _ _ => rfl
  | cons c cs ih =>
    apply Finset.sum_congr rfl
    intro i hi
    apply ih
    intro τ inside outside
    obtain ⟨inside, outside⟩ := varies_cons_iff.2 ⟨i, Finset.mem_range.1 hi, inside, outside⟩
    exact same τ inside outside

theorem sumOver_congr_extent {extent' : Char → Nat} {cs : List Char}
    (same : ∀ c ∈ cs, extent c = extent' c) (f : (Char → Nat) → K) (σ : Char → Nat) :
    sumOver extent cs f σ = sumOver extent' cs f σ := by
  induction cs generalizing σ with
  | nil => rfl
  | cons c cs ih =>
    rw [sumOver, sumOver, same c List.mem_cons_self]
    exact Finset.sum_congr rfl fun i _ => ih (fun e he => same e (List.mem_cons_of_mem c he)) _

/-- A sum depends on the symbols that its terms depend on, less those it runs over. -/
theorem dependsOn_sumOver {cs : List Char} {S : Set Char} (depends : DependsOn f S) :
    DependsOn (sumOver extent cs f) (S \ {c | c ∈ cs}) := by
  induction cs with
  | nil => simpa [sumOver, funext_iff] using depends
  | cons c cs ih =>
    intro σ τ agree
    refine Finset.sum_congr rfl fun i _ => ih fun e he => ?_
    by_cases here : e = c
    · simp [here]
    · rw [Function.update_of_ne here, Function.update_of_ne here]
      exact agree e ⟨he.1, by simpa [here] using he.2⟩

/-- An additive map that depends on none of the symbols can be taken out of the sum. -/
theorem sumOver_map {cs : List Char} {S : Set Char} {h : (Char → Nat) → K →+ L}
    (depends : DependsOn h S) (free : ∀ c ∈ cs, c ∉ S) :
    sumOver extent cs (fun τ => h τ (f τ)) σ = h σ (sumOver extent cs f σ) := by
  induction cs generalizing σ with
  | nil => rfl
  | cons c cs ih =>
    rw [sumOver, sumOver, map_sum]
    apply Finset.sum_congr rfl
    intro i _
    rw [ih fun e he => free e (List.mem_cons_of_mem c he)]
    have same : h (Function.update σ c i) = h σ := by
      apply depends
      intro e he
      apply Function.update_of_ne
      rintro rfl
      exact free e List.mem_cons_self he
    rw [same]

/-- Sums in two stages are one sum when the map that is applied between them depends on no symbol of
the first. -/
theorem sumOver_staged {first second all : List Char} {S : Set Char} {h : (Char → Nat) → K →+ L}
    (depends : DependsOn h S) (apart : ∀ c ∈ first, c ∉ S) (divided : all.Perm (second ++ first)) :
    sumOver extent second (fun ρ => h ρ (sumOver extent first f ρ)) σ =
      sumOver extent all (fun ρ => h ρ (f ρ)) σ := by
  calc
    _ = sumOver extent second (sumOver extent first fun ρ => h ρ (f ρ)) σ := by
      congr 1
      exact funext fun ρ => (sumOver_map depends apart).symm
    _ = _ := by rw [← sumOver_append, sumOver_perm divided]

end Laws

namespace Assignment

variable {extent : Char → Nat}

/-- The values of an assignment put in place of those that the symbols had before. -/
def overlay : List Char → List Nat → (Char → Nat) → Char → Nat
  | c :: cs, d :: ds, σ => overlay cs ds (Function.update σ c d)
  | _, _, σ => σ

/-- Whether an assignment leaves the values of given symbols as they were. -/
def keeps (fixed : List Char) (σ : Char → Nat) : List Char → List Nat → Bool
  | c :: cs, d :: ds => decide (c ∈ fixed → d = σ c) && keeps fixed σ cs ds
  | _, _ => true

theorem overlay_of_notMem {order : List Char} {c : Char} (absent : c ∉ order) (a : List Nat)
    (σ : Char → Nat) : overlay order a σ c = σ c := by
  induction order generalizing a σ with
  | nil => rfl
  | cons e order ih =>
    rw [List.mem_cons, not_or] at absent
    cases a with
    | nil => rfl
    | cons d ds => rw [overlay, ih absent.2, Function.update_of_ne absent.1]

theorem overlay_eq_value {order : List Char} (distinct : order.Nodup) {a : List Nat}
    (count : a.length = order.length) (σ : Char → Nat) {c : Char} (hc : c ∈ order) :
    overlay order a σ c = value order a c := by
  induction order generalizing a σ with
  | nil => cases hc
  | cons e order ih =>
    cases a with
    | nil => simp at count
    | cons d ds =>
      obtain ⟨fresh, distinct⟩ := List.nodup_cons.1 distinct
      rw [overlay, value]
      by_cases same : c = e
      · rw [if_pos same, same, overlay_of_notMem fresh, Function.update_self]
      · rw [if_neg same]
        exact ih distinct (by simpa using count) _ ((List.mem_cons.1 hc).resolve_left same)

theorem keeps_iff {order fixed : List Char} {σ : Char → Nat} {a : List Nat} (distinct : order.Nodup)
    (count : a.length = order.length) :
    keeps fixed σ order a = true ↔ ∀ c ∈ order, c ∈ fixed → value order a c = σ c := by
  induction order generalizing a with
  | nil => simp [keeps]
  | cons e order ih =>
    cases a with
    | nil => simp at count
    | cons d ds =>
      obtain ⟨fresh, distinct⟩ := List.nodup_cons.1 distinct
      rw [keeps, Bool.and_eq_true, decide_eq_true_iff, List.forall_mem_cons,
        ih distinct (by simpa using count)]
      refine and_congr (by simp [value]) (forall₂_congr fun c hc => ?_)
      have differ : c ≠ e := by
        rintro rfl
        exact fresh hc
      rw [value, if_neg differ]

theorem keeps_congr {order fixed : List Char} {σ τ : Char → Nat}
    (same : ∀ c ∈ order, c ∈ fixed → σ c = τ c) : keeps fixed σ order = keeps fixed τ order := by
  funext a
  induction order generalizing a with
  | nil => rfl
  | cons e order ih =>
    cases a with
    | nil => rfl
    | cons d ds =>
      rw [keeps, keeps, ih fun c hc => same c (List.mem_cons_of_mem e hc)]
      congr 1
      rw [decide_eq_decide]
      exact imp_congr_right fun here => by rw [same e List.mem_cons_self here]

theorem sum_map_flatMap_range {β : Type} (n : Nat) (g : Nat → List β) (f : β → K) :
    (((List.range n).flatMap g).map f).sum = ∑ i ∈ Finset.range n, ((g i).map f).sum := by
  induction n with
  | zero => rfl
  | succ n ih =>
    rw [List.range_succ, List.flatMap_append, List.map_append, List.sum_append, ih,
      Finset.sum_range_succ]
    simp

/-- Summing over the assignments that keep some symbols is summing over the values of the other
symbols. -/
theorem sum_keeping_eq_sumOver (order fixed : List Char) (distinct : order.Nodup) {σ : Char → Nat}
    (inside : ∀ c ∈ order, c ∈ fixed → σ c < extent c) (f : (Char → Nat) → K) :
    (((coordinatesFrom (order.map extent)).filter (keeps fixed σ order)).map
        fun a => f (overlay order a σ)).sum =
      sumOver extent (order.filter (· ∉ fixed)) f σ := by
  induction order generalizing σ with
  | nil => simp [coordinatesFrom, keeps, overlay, sumOver]
  | cons c order ih =>
    obtain ⟨fresh, distinct⟩ := List.nodup_cons.1 distinct
    have rest (i : Nat) : ∀ e ∈ order, e ∈ fixed → Function.update σ c i e = σ e := by
      intro e he _
      refine Function.update_of_ne ?_ _ _
      rintro rfl
      exact fresh he
    have column (i : Nat) : (((coordinatesFrom (order.map extent)).filter (keeps fixed σ order)).map
        fun a => f (overlay order a (Function.update σ c i))).sum =
        sumOver extent (order.filter (· ∉ fixed)) f (Function.update σ c i) := by
      rw [← keeps_congr (rest i)]
      apply ih distinct
      intro e he fixed
      rw [rest i e he fixed]
      exact inside e (List.mem_cons_of_mem c he) fixed
    have shown (i : Nat) : keeps fixed σ (c :: order) ∘ (i :: ·) =
        fun a => decide (c ∈ fixed → i = σ c) && keeps fixed σ order a := rfl
    simp only [List.map_cons, coordinatesFrom, List.filter_flatMap, sum_map_flatMap_range,
      List.filter_map, List.map_map, shown]
    by_cases here : c ∈ fixed
    · -- Only the value that the symbol has is left.
      rw [Finset.sum_eq_single_of_mem (σ c) (Finset.mem_range.2 (inside c List.mem_cons_self here)),
        List.filter_cons_of_neg (by simpa using here)]
      · simpa [Function.comp_def, overlay] using column (σ c)
      · intro i _ differ
        simp [here, differ]
    · rw [List.filter_cons_of_pos (by simpa using here), sumOver]
      apply Finset.sum_congr rfl
      intro i _
      rw [← column i]
      simp [here, Function.comp_def, overlay]

end Assignment

end TensorCalculus
