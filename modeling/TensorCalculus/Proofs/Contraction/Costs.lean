import TensorCalculus.Profile
import TensorCalculus.Settings
import TensorCalculus.Proofs.Contraction.Requests
import TensorCalculus.Proofs.Decimal.Whole

/-!
# What estimates count

The cost of a contraction is told from its plan, before the loop runs. The symbols are those of the
output and those summed over, and every assignment of the former goes with every assignment of the
latter. So the loop visits all cells equally often, and the numbers that a cost, a profile and a
limit derive by themselves are all numbers of visits. Operations and the bytes of a profile are told
as doubles, which are exact up to 53 bits and end somewhere. -/

namespace TensorCalculus

open TensorCalculus.Layout TensorCalculus.Outcome

variable {τ : Type}

namespace Plan

namespace Sound

variable {p : Plan} (sound : p.Sound)
include sound

theorem jointSize_cast : p.jointSize = (volume (p.order.map p.extent) : Nat) := by
  have all : p.order.map p.sizeOf = (p.order.map p.extent).map Int.ofNat :=
    sound.map_sizeOf fun _ hc => hc
  rw [jointSize, sizes, all, volume_cast]

theorem contractedSize_cast : p.contractedSize = (volume (p.contracted.map p.extent) : Nat) := by
  rw [contractedSize, sound.map_sizeOf fun c hc => (mem_contracted.1 hc).1, volume_cast]

theorem length_visits : (p.visits.length : Int) = p.jointSize := by
  rw [sound.visits_eq_travel, List.length_map, assignments, length_coordinates,
    sound.jointSize_cast]

variable (distinct : p.subscripts.output.Nodup)
include distinct

/-- The symbols are those of the output and those summed over. -/
theorem order_perm : p.order.Perm (p.subscripts.output ++ p.contracted) := by
  have rest : p.contracted.Nodup := nodup_order.filter _
  have apart : p.subscripts.output.Disjoint p.contracted := fun c kept summed =>
    (mem_contracted.1 summed).2 kept
  rw [List.perm_ext_iff_of_nodup nodup_order (distinct.append rest apart)]
  intro c
  rw [List.mem_append, mem_contracted]
  constructor
  · intro known
    by_cases kept : c ∈ p.subscripts.output
    · exact .inl kept
    · exact .inr ⟨known, kept⟩
  · rintro (kept | ⟨known, -⟩)
    · exact sound.mem_order_of_mem_output c kept
    · exact known

theorem jointSize_eq : p.jointSize = p.outputSize * p.contractedSize := by
  rw [jointSize, sizes, volume_perm ((sound.order_perm distinct).map p.sizeOf), List.map_append,
    volume_append]
  rfl

/-- As many assignments agree with each coordinates of the output as the symbols summed over have
values. -/
theorem length_agreeing {o : List Nat} (ho : InRange (p.subscripts.output.map p.extent) o) :
    (p.agreeing o).length = volume (p.contracted.map p.extent) := by
  have ones := sum_agreeing_eq_sumOver (M := Nat) distinct sound.mem_order_of_mem_output ho
    (f := fun _ => 1) fun _ _ _ => rfl
  rw [sumOver_one] at ones
  rw [← ones]
  simp

/-- Every place of the output is visited equally often. -/
theorem countP_visits {place : Int} (nonnegative : 0 ≤ place) (bound : place < p.outputSize) :
    ((p.visits.countP fun o => o.output = place : Nat) : Int) = p.contractedSize := by
  obtain ⟨n, rfl⟩ := Int.eq_ofNat_of_zero_le nonnegative
  rw [sound.outputSize_eq] at bound
  obtain ⟨o, ho, rfl⟩ := exists_offset_eq (Int.ofNat_lt.1 bound)
  rw [sound.contractedSize_cast, ← sound.length_agreeing distinct ho, sound.visits_eq distinct,
    List.countP_map, agreeing, ← List.countP_eq_length_filter]
  congr 1
  apply List.countP_congr
  intro a ha
  have here := inRange_coordsOf ha sound.mem_order_of_mem_output
  simp only [Function.comp_apply, decide_eq_true_eq, Int.natCast_inj, placeOf]
  constructor
  · exact offset_injective here ho
  · intro same
    rw [same]

theorem output_of_mem_visits {o : Offsets} (visited : o ∈ p.visits) :
    0 ≤ o.output ∧ o.output < p.outputSize := by
  rw [sound.visits_eq distinct] at visited
  obtain ⟨a, ha, rfl⟩ := List.mem_map.1 visited
  rw [sound.outputSize_eq]
  have here := inRange_coordsOf ha sound.mem_order_of_mem_output
  exact ⟨Int.natCast_nonneg _, Int.ofNat_lt.2 (offset_lt_volume here)⟩

theorem operations_eq : p.operations = if p.contracted = [] then p.jointSize
    else 2 * p.jointSize := by
  rw [operations, sound.jointSize_eq distinct]
  by_cases empty : p.contracted = []
  · have single : p.contractedSize = 1 := by rw [contractedSize, empty]; rfl
    rw [if_pos empty, if_pos (List.isEmpty_iff.2 empty), single, Int.mul_one]
  · rw [if_neg empty, if_neg (mt List.isEmpty_iff.1 empty), Int.mul_assoc]

theorem reductions_eq : p.reductions = max (p.jointSize - p.outputSize) 0 := by
  rw [reductions, sound.jointSize_eq distinct]
  have cells : 0 ≤ p.outputSize := by rw [sound.outputSize_eq]; exact Int.natCast_nonneg _
  by_cases empty : p.contracted = []
  · have single : p.contractedSize = 1 := by rw [contractedSize, empty]; rfl
    rw [if_pos (List.isEmpty_iff.2 empty), single, Int.mul_one, Int.sub_self, max_self]
  · rw [if_neg (mt List.isEmpty_iff.1 empty)]
    have terms : 0 ≤ p.contractedSize := by
      rw [sound.contractedSize_cast]; exact Int.natCast_nonneg _
    rcases eq_or_lt_of_le terms with vanishing | several
    · rw [← vanishing]
      simp [cells]
    · have more : 0 ≤ (p.contractedSize - 1) * p.outputSize := Int.mul_nonneg (by omega) cells
      have expand : p.outputSize * p.contractedSize - p.outputSize =
        (p.contractedSize - 1) * p.outputSize := by ring
      rw [expand, max_eq_left more, max_eq_left (by omega)]

end Sound

/-- How the loop of a plan visits the cells of its output: each of them equally often. -/
structure VisitsEvenly (p : Plan) : Prop where
  inside : ∀ o ∈ p.visits, 0 ≤ o.output ∧ o.output < p.outputSize
  each : ∀ place, 0 ≤ place → place < p.outputSize →
    ((p.visits.countP fun o => o.output = place : Nat) : Int) = p.contractedSize
  all : (p.visits.length : Int) = p.jointSize
  product : p.jointSize = p.outputSize * p.contractedSize

/-- The operations that the loop carries out: a multiplication at every visit, and an addition where
something is summed over. -/
def work (p : Plan) : Int :=
  if p.contracted = [] then p.visits.length else 2 * p.visits.length

end Plan

/-- Whether the cost of a plan counts its visits. It is told as long as a double can hold the
operations. -/
structure Plan.CostCounts (p : Plan) : Prop where
  told : ∀ size, (∃ c, p.cost (.ok size) = .ok c) ↔ p.work < Decimal.wholeLimit
  refused :
    ∀ size, Decimal.wholeLimit ≤ p.work → p.cost (.ok size) = .error (.range .integerTooLarge)
  operations : ∀ size c, p.cost (.ok size) = .ok c → Literal.Rounds p.work c.operations
  reductions :
    ∀ size c, p.cost (.ok size) = .ok c → c.reductions = max (p.visits.length - p.outputSize) 0
  jointSize : ∀ size c, p.cost (.ok size) = .ok c → c.jointSize = p.visits.length

namespace Plan.Sound

variable {p : Plan} (sound : p.Sound) (distinct : p.subscripts.output.Nodup)
include sound distinct

theorem visitsEvenly : p.VisitsEvenly where
  inside _ := sound.output_of_mem_visits distinct
  each _ := sound.countP_visits distinct
  all := sound.length_visits
  product := sound.jointSize_eq distinct

theorem operations_eq_work : p.operations = p.work := by
  rw [sound.operations_eq distinct, work, sound.length_visits]

theorem costCounts : p.CostCounts := by
  have natural : p.operations.natAbs = p.work := by
    rw [sound.operations_eq_work distinct, work]
    split <;> omega
  have told {size : Int} {c : Cost} (cost : p.cost (.ok size) = .ok c) :
      Literal.doubleOfInt p.operations = .ok c.operations ∧ c.reductions = p.reductions ∧
        c.jointSize = p.jointSize := by
    obtain ⟨x, double, rest⟩ := bind_eq_ok_iff.1 cost
    cases rest
    exact ⟨double, rfl, rfl⟩
  constructor
  · intro size
    rw [← natural, Int.ofNat_lt, ← Literal.exists_doubleOfInt_iff]
    constructor
    · rintro ⟨c, cost⟩
      exact ⟨_, (told cost).1⟩
    · rintro ⟨x, double⟩
      rw [cost, double]
      exact ⟨_, rfl⟩
  · intro size large
    rw [← natural, Int.ofNat_le] at large
    rw [cost, Literal.doubleOfInt_of_large large]
    rfl
  · intro size c cost
    rw [← sound.operations_eq_work distinct]
    exact Literal.rounds_of_doubleOfInt (told cost).1
  · intro size c cost
    rw [(told cost).2.1, sound.reductions_eq distinct, sound.length_visits]
  · intro size c cost
    rw [(told cost).2.2, sound.length_visits]

end Plan.Sound

/-- A profile of a plan can be made as long as doubles can hold all bytes and all operations. -/
theorem Profile.exists_ofPlan_iff {p : Plan} (bytesIn : 0 ≤ p.inputSize)
    (bytesOut : 0 ≤ p.outputSize) : (∃ r, ofPlan p = .ok r) ↔
      (p.inputSize * 8 + p.outputSize * 8).natAbs < Decimal.wholeLimit ∧
      (p.jointSize * p.operandShapes.length * 2).natAbs < Decimal.wholeLimit := by
  rw [← Literal.exists_doubleOfInt_iff, ← Literal.exists_doubleOfInt_iff]
  constructor
  · rintro ⟨r, profiled⟩
    obtain ⟨all, bytes, profiled⟩ := bind_eq_ok_iff.1 profiled
    obtain ⟨cache, -, profiled⟩ := bind_eq_ok_iff.1 profiled
    obtain ⟨shared, -, profiled⟩ := bind_eq_ok_iff.1 profiled
    obtain ⟨operations, work, -⟩ := bind_eq_ok_iff.1 profiled
    exact ⟨⟨all, bytes⟩, operations, work⟩
  · rintro ⟨⟨all, bytes⟩, operations, work⟩
    have limit : 6 * 1024 * 1024 < Decimal.wholeLimit := by decide +kernel
    obtain ⟨cache, cached⟩ := Literal.exists_doubleOfInt_iff.2
      (show (min (p.inputSize * 8 + p.outputSize * 8) cacheLimit).natAbs < Decimal.wholeLimit by
        rw [cacheLimit]; omega)
    obtain ⟨shared, sharing⟩ := Literal.exists_doubleOfInt_iff.2
      (show (min (p.inputSize * 8) sharedLimit).natAbs < Decimal.wholeLimit by
        rw [sharedLimit]; omega)
    simp only [ofPlan, elementBytes, bytes, cached, sharing, work, ok_bind]
    exact ⟨_, rfl⟩

theorem Profile.mainBytes_of_ofPlan {p : Plan} {r : Profile} (profiled : ofPlan p = .ok r) :
    ∃ x, r.mainBytes = .real x ∧ Literal.doubleOfInt (p.inputSize * 8 + p.outputSize * 8) =
      .ok x := by
  obtain ⟨all, bytes, profiled⟩ := bind_eq_ok_iff.1 profiled
  obtain ⟨cache, -, profiled⟩ := bind_eq_ok_iff.1 profiled
  obtain ⟨shared, -, profiled⟩ := bind_eq_ok_iff.1 profiled
  obtain ⟨operations, -, profiled⟩ := bind_eq_ok_iff.1 profiled
  cases profiled
  exact ⟨all, rfl, bytes⟩

theorem Plan.bytesTotal_of_cost {p : Plan} {size : Int} {c : Cost}
    (cost : p.cost (.ok size) = .ok c) :
    c.bytesTotal = p.inputSize * size + p.outputSize * size := by
  obtain ⟨x, -, rest⟩ := bind_eq_ok_iff.1 cost
  cases rest
  rfl

/-- Whether the profile of a contraction tells the bytes that the cost of its plan tells. It is made
as long as doubles can hold these bytes, and twice as many operations for every operand as the loop
has visits. -/
structure Plan.ProfileAgrees (p : Plan) (s : Subscripts) (shapes : List (List Int)) : Prop where
  made : (∃ r, (do Profile.ofPlan (← resolve s shapes .diagonal)) = .ok r) ↔
    p.inputSize * 8 + p.outputSize * 8 < Decimal.wholeLimit ∧
      (p.visits.length * shapes.length * 2 : Int) < Decimal.wholeLimit
  bytes :
    ∀ c r, p.cost (.ok 8) = .ok c → (do Profile.ofPlan (← resolve s shapes .diagonal)) = .ok r →
    ∃ x, r.mainBytes = .real x ∧ Literal.Rounds c.bytesTotal x

/-- Estimates count what the loop does. Every cell of the output is visited as often as the symbols
summed over have values, so that all visits together are the joint assignments. The cost of a plan
reports these numbers, with the operations as the nearest double, and a limit refuses a contraction
exactly when it has more visits than that, which is what is reported as long as both numbers can be
written. The bytes of a plan are the same whether its cost is asked for or a profile of the
contraction. -/
theorem estimates_count_visits {s : Subscripts} {shapes : List (List Int)}
    {policy : RepetitionPolicy} {p : Plan} (nonnegative : ∀ shape ∈ shapes, ∀ d ∈ shape, 0 ≤ d)
    (distinct : s.output.Nodup)
    (accepted : Plan.resolve s shapes policy = .ok p) :
    p.VisitsEvenly ∧ p.CostCounts ∧ p.ProfileAgrees s shapes ∧
      ∀ (settings : Settings τ) (limit : Int), settings.repetition = policy →
        settings.sizeLimit = some limit →
        (settings.plan s shapes = .error (.jointSize s.toText p.jointSize limit) ↔
          limit < p.visits.length) ∧
        (settings.plan s shapes = .ok p ↔ p.visits.length ≤ limit) ∧
        (Text.isWritable p.jointSize = true → Text.isWritable limit = true →
          (Fault.jointSize s.toText p.jointSize limit).kind = "ResourceLimitError") := by
  have natural : shapes = (shapes.map (·.map Int.toNat)).map (·.map Int.ofNat) := by
    rw [List.map_map]
    refine (List.map_id shapes).symm.trans (List.map_congr_left fun shape hs => ?_)
    exact (map_ofNat_map_toNat (nonnegative shape hs)).symm
  have sound : p.Sound := Plan.sound_of_resolve (natural ▸ accepted)
  obtain ⟨rfl, given, -⟩ := Plan.fits_of_resolve accepted
  have bytesOut : 0 ≤ p.outputSize := by
    rw [sound.outputSize_eq]
    exact Int.natCast_nonneg _
  have bytesIn : 0 ≤ p.inputSize := by
    apply List.sum_nonneg
    intro volume hv
    obtain ⟨shape, hs, rfl⟩ := List.mem_map.1 hv
    exact volume_nonneg (nonnegative shape (given ▸ hs))
  refine ⟨sound.visitsEvenly distinct, sound.costCounts distinct, ⟨?_, ?_⟩, ?_⟩
  · have visits : 0 ≤ p.jointSize * shapes.length * 2 := by
      rw [sound.jointSize_cast]
      positivity
    have natural {n : Int} (h : 0 ≤ n) : n.natAbs < Decimal.wholeLimit ↔
      n < Decimal.wholeLimit := by omega
    rw [Plan.resolve_diagonal accepted, ok_bind, Profile.exists_ofPlan_iff bytesIn bytesOut, given,
      sound.length_visits, natural visits, natural (by omega)]
  · intro c r cost profiled
    rw [Plan.resolve_diagonal accepted] at profiled
    obtain ⟨x, main, double⟩ := Profile.mainBytes_of_ofPlan profiled
    rw [Plan.bytesTotal_of_cost cost]
    exact ⟨x, main, Literal.rounds_of_doubleOfInt double⟩
  · intro settings limit policy_eq limited
    rw [Settings.plan, policy_eq, accepted, ok_bind, limited, Plan.checkLimit, sound.length_visits]
    refine ⟨?_, ?_, fun visits most => ?_⟩
    · by_cases exceeds : limit < p.jointSize <;> simp [exceeds]
    · by_cases exceeds : limit < p.jointSize
      · simp [exceeds]
      · simp [exceeds, Int.not_lt.1 exceeds]
    · rw [Fault.kind_eq]
      exact if_pos (Bool.and_eq_true_iff.2 ⟨visits, most⟩)

/-- A long vector that is copied, of one more element than doubles can count one by one. -/
def longCopy : Plan where
  subscripts := { inputs := [['i']], output := ['i'] }
  operandShapes := [[2 ^ 53 + 1]]
  symbolSizes := [('i', 2 ^ 53 + 1)]

/-- A vector that is longer than any double. -/
def endlessCopy : Plan where
  subscripts := { inputs := [['i']], output := ['i'] }
  operandShapes := [[2 ^ 1024]]
  symbolSizes := [('i', 2 ^ 1024)]

/-- Estimates are not exact beyond 53 bits: of a long vector that is copied, neither the operations
nor the bytes of the profile are the whole numbers that they stand for. Of a vector that is longer
than any double, nothing is told at all. -/
theorem estimates_rounded :
    (Plan.resolve longCopy.subscripts longCopy.operandShapes .diagonal = .ok longCopy ∧
      longCopy.subscripts.output.Nodup ∧ longCopy.contracted = [] ∧
      ∃ c r, longCopy.cost (.ok 8) = .ok c ∧
        Literal.same (.real c.operations) (.int longCopy.jointSize) = false ∧
        (do Profile.ofPlan (← Plan.resolve longCopy.subscripts longCopy.operandShapes .diagonal)) =
          .ok r ∧
        Literal.same r.mainBytes (.int c.bytesTotal) = false) ∧
    Plan.resolve endlessCopy.subscripts endlessCopy.operandShapes .diagonal = .ok endlessCopy ∧
      endlessCopy.cost (.ok 8) = .error (.range .integerTooLarge) := by
  have accepted : Plan.resolve longCopy.subscripts longCopy.operandShapes .diagonal =
    .ok longCopy := by rfl
  have accepted' : Plan.resolve endlessCopy.subscripts endlessCopy.operandShapes .diagonal =
    .ok endlessCopy := by rfl
  have work : longCopy.operations = ((2 ^ 53 + 1 : Nat) : Int) := by decide
  have cost : longCopy.cost (.ok 8) = .ok
      { operations := Decimal.nearest false (2 ^ 53 + 1) 1
        bytesIn := 2 ^ 56 + 8, bytesOut := 2 ^ 56 + 8
        contracted := [], output := ['i'], reductions := 0, jointSize := 2 ^ 53 + 1 } := by
    rw [Plan.cost, work, Literal.doubleOfInt_natCast (by decide +kernel)]
    rfl
  obtain ⟨r, profiled⟩ :=
    (Profile.exists_ofPlan_iff (p := longCopy) (by decide) (by decide)).2 (by decide +kernel)
  obtain ⟨x, main, double⟩ := Profile.mainBytes_of_ofPlan profiled
  have bytes : longCopy.inputSize * 8 + longCopy.outputSize * 8 = ((2 ^ 57 + 16 : Nat) : Int) := by
    decide
  rw [bytes, Literal.doubleOfInt_natCast (by decide +kernel)] at double
  cases double
  refine ⟨⟨accepted, by decide, by decide, _, r, cost, by decide +kernel, ?_, ?_⟩, accepted', ?_⟩
  · rw [accepted, ok_bind, profiled]
  · rw [main]
    decide +kernel
  · rw [Plan.cost, Literal.doubleOfInt_of_large (by decide +kernel)]
    rfl

def rowsByColumns : Subscripts := { inputs := [['i', 'j'], ['j', 'k']], output := ['i', 'k'] }

/-- A product of matrices, whose loop has four visits more than it may have. -/
theorem estimates_count_visits_rowsByColumns :
    (∀ shape ∈ [[2, 3], [3, 4]], ∀ d ∈ shape, (0 : Int) ≤ d) ∧ rowsByColumns.output.Nodup ∧
      ∃ p, Plan.resolve rowsByColumns [[2, 3], [3, 4]] .reject = .ok p ∧ p.visits.length = 24 ∧
        (p.visits.countP fun o => o.output = 5) = 3 ∧
        ∃ text,
          Settings.plan { repetition := .reject, sizeLimit := some 20, tolerance := () }
            rowsByColumns [[2, 3], [3, 4]] = .error (.jointSize text 24 20) := by
  have nonnegative : ∀ shape ∈ [[2, 3], [3, 4]], ∀ d ∈ shape, (0 : Int) ≤ d := by decide
  have distinct : rowsByColumns.output.Nodup := by decide
  let p : Plan := ⟨rowsByColumns, [[2, 3], [3, 4]], [('i', 2), ('j', 3), ('k', 4)]⟩
  have accepted : Plan.resolve rowsByColumns [[2, 3], [3, 4]] .reject = .ok p := by rfl
  obtain ⟨evenly, -, -, limits⟩ := estimates_count_visits nonnegative distinct accepted
  have visits : p.visits.length = 24 := Int.ofNat_inj.1 evenly.all
  have each : (p.visits.countP fun o => o.output = 5) = 3 :=
    Int.ofNat_inj.1 (evenly.each 5 (by decide) (by decide))
  refine ⟨nonnegative, distinct, p, accepted, visits, each, rowsByColumns.toText, ?_⟩
  apply ((limits _ 20 rfl rfl).1).2
  rw [visits]
  decide

end TensorCalculus
