import TensorCalculus.Proofs.Contraction.Evaluation
import TensorCalculus.Proofs.Layout.Limits

/-!
# Requests for contractions

A contraction is asked for by a wording and a list of operands. When one size for every symbol
explains the shapes of the operands, the request is granted unless it is too large, and the answer
holds the sums of products. -/

namespace TensorCalculus

open TensorCalculus.Layout TensorCalculus.Outcome
open Factor

variable {ε K τ : Type}

namespace Factor

def operands (factors : List (Factor ε)) : List (Operand ε) :=
  factors.map fun factor => .real factor.2

theorem expectReals_real (tensors : List (Tensor ε)) :
    Operand.expectReals (tensors.map .real) = .ok tensors := by
  rw [Operand.expectReals, mapM_eq_ok_iff, List.forall₂_map_left_iff]
  exact List.forall₂_same.2 fun _ _ => rfl

theorem expectReals_eq_ok_iff {operands : List (Operand ε)} {tensors : List (Tensor ε)} :
    Operand.expectReals operands = .ok tensors ↔ operands = tensors.map .real := by
  constructor
  · intro accepted
    rw [Operand.expectReals, mapM_eq_ok_iff] at accepted
    induction accepted with
    | nil => rfl
    | @cons operand t operands tensors here _ ih =>
      cases operand with
      | real s =>
        cases here
        rw [ih, List.map_cons]
      | hyper s => cases here
      | foreign kind algebra shape => cases here
  · rintro rfl
    exact expectReals_real tensors

theorem expectReals_operands (factors : List (Factor ε)) :
    Operand.expectReals (operands factors) = .ok (factors.map (·.2)) := by
  rw [← expectReals_real, List.map_map]
  rfl

/-- Whether a request names the segments of the factors and a given output. -/
def Asked (factors : List (Factor ε)) (output : List Char) (wording : Wording) : Prop :=
  ∃ s, wording.resolve = .ok s ∧ s.inputs = factors.map (·.1) ∧ s.output = output

/-- The number of joint assignments of values to the symbols of the factors. -/
def assignments (factors : List (Factor ε)) (extent : Char → Nat) : Nat :=
  volume ((firstOccurrences (factors.map (·.1)).flatten).map extent)

/-- Whether the limit on the number of assignments admits a contraction of the factors. -/
def Admitted (settings : Settings τ) (factors : List (Factor ε)) (extent : Char → Nat) : Prop :=
  ∀ limit, settings.sizeLimit = some limit → assignments factors extent ≤ limit

/-- Whether a contraction is not refused for its size: the limit on the number of assignments admits
it, and a list can hold its output. -/
structure Affordable (settings : Settings τ) (factors : List (Factor ε)) (output : List Char)
    (extent : Char → Nat) : Prop where
  admitted : Admitted settings factors extent
  listed : (∃ factor ∈ factors, volume (output.map extent) ≤ volume factor.2.shape) ∨
    volume (output.map extent) ≤ listLimit

/-- Whether factors fit together for an output: one size for every symbol explains their shapes, the
output takes its symbols from them, and no segment repeats a symbol where repetitions are
rejected. -/
structure Matched (policy : RepetitionPolicy) (factors : List (Factor ε)) (output : List Char)
    (extent : Char → Nat) : Prop where
  sized : Sized factors extent
  occurs_of_mem_output : ∀ c ∈ output, Occurs factors c
  nodup_of_reject : policy = .reject → ∀ factor ∈ factors, factor.1.Nodup

end Factor

/-- A contraction of real tensors that runs its plan in a given way. -/
def contractWith (run : Runner ε) (settings : Settings τ) (wording : Wording)
    (operands : List (Operand ε)) (name : Option String) : Except Fault (Tensor ε) := do
  let tensors ← Operand.expectReals operands
  let plan ← settings.planWording wording (tensors.map Tensor.dims)
  run plan tensors name

theorem einsum_eq_contractWith [Zero ε] [One ε] [Add ε] [Mul ε] [BulkRoutine ε]
    {settings : Settings τ} (loop : settings.strategy = .loop) :
    einsum settings = contractWith (fun p tensors name => p.runReal (α := ε) tensors .loop name)
      settings := by
  funext wording operands name
  rw [einsum, loop]
  rfl

variable {s : Subscripts} {p : Plan} {policy : RepetitionPolicy} {factors : List (Factor ε)}
  {extent : Char → Nat}

theorem mem_symbols_iff_occurs (segments : s.inputs = factors.map (·.1)) (c : Char) :
    c ∈ s.symbols ↔ Occurs factors c := by
  simp [Occurs, segments]

theorem dims_eq_of_sized (sized : Sized factors extent) :
    factors.map (·.2.dims) = (factors.map (·.1)).map (·.map fun c => (extent c : Int)) := by
  rw [List.map_map]
  apply List.map_congr_left
  intro factor here
  rw [Tensor.dims, sized factor here, List.map_map]
  rfl

theorem map_dims (factors : List (Factor ε)) :
    factors.map (·.2.dims) = (factors.map (·.2.shape)).map (·.map Int.ofNat) := by
  rw [List.map_map]
  rfl

theorem sound_of_resolve_dims (accepted : Plan.resolve s (factors.map (·.2.dims)) policy = .ok p) :
    p.Sound :=
  Plan.sound_of_resolve (map_dims factors ▸ accepted)

theorem matched_of_resolve (segments : s.inputs = factors.map (·.1))
    (accepted : Plan.resolve s (factors.map (·.2.dims)) policy = .ok p) :
    Matched policy factors s.output p.extent := by
  rw [map_dims] at accepted
  have shapes := Plan.shapes_eq_of_resolve accepted
  obtain ⟨-, -, fits⟩ := Plan.fits_of_resolve accepted
  rw [segments, List.map_map] at shapes
  constructor
  · intro factor here
    exact List.map_inj_left.1 shapes factor here
  · intro c hc
    exact (mem_symbols_iff_occurs segments c).1 (fits.mem_symbols_of_mem_output c hc)
  · intro rejects factor here
    exact fits.nodup_of_reject rejects _ (segments ▸ List.mem_map_of_mem here)

/-- Factors that fit together are accepted. -/
theorem resolve_of_matched (segments : s.inputs = factors.map (·.1))
    (matched : Matched policy factors s.output extent) :
    ∃ p, Plan.resolve s (factors.map (·.2.dims)) policy = .ok p := by
  have fits : s.Fits policy (factors.map (·.2.dims)) fun c => (extent c : Int) := by
    constructor
    · rw [dims_eq_of_sized matched.sized, segments]
    · intro c hc
      exact (mem_symbols_iff_occurs segments c).2 (matched.occurs_of_mem_output c hc)
    · intro rejects segment hs
      rw [segments] at hs
      obtain ⟨factor, here, rfl⟩ := List.mem_map.1 hs
      exact matched.nodup_of_reject rejects factor here
  obtain ⟨p, accepted, -⟩ := Plan.resolve_of_fits fits
  exact ⟨p, accepted⟩

theorem extent_eq_of_sized {size : Char → Nat} (left : Sized factors size)
    (right : Sized factors extent) {c : Char} (occurs : Occurs factors c) : size c = extent c := by
  obtain ⟨factor, here, hc⟩ := occurs
  exact List.map_inj_left.1 ((left factor here).symm.trans (right factor here)) c hc

/-- An accepted plan gives the output the shape that the factors explain. -/
theorem map_extent_output (segments : s.inputs = factors.map (·.1))
    (accepted : Plan.resolve s (factors.map (·.2.dims)) policy = .ok p)
      (sized : Sized factors extent) :
    s.output.map p.extent = s.output.map extent := by
  have planned := matched_of_resolve segments accepted
  exact List.map_congr_left fun c hc =>
    extent_eq_of_sized planned.sized sized (planned.occurs_of_mem_output c hc)

/-- An accepted plan sums over the sizes that the factors explain. -/
theorem sumOver_extent [AddCommMonoid K] (segments : s.inputs = factors.map (·.1))
    (accepted : Plan.resolve s (factors.map (·.2.dims)) policy = .ok p)
      (sized : Sized factors extent)
    (f : (Char → Nat) → K) (σ : Char → Nat) :
    sumOver p.extent p.contracted f σ = sumOver extent s.contracted f σ := by
  have planned := matched_of_resolve segments accepted
  obtain ⟨rfl, -, -⟩ := Plan.fits_of_resolve accepted
  apply sumOver_congr_extent
  intro c hc
  exact extent_eq_of_sized planned.sized sized
    ((mem_symbols_iff_occurs segments c).1 (Subscripts.mem_contracted.1 hc).1)

theorem jointSize_eq_assignments (segments : s.inputs = factors.map (·.1))
    (accepted : Plan.resolve s (factors.map (·.2.dims)) policy = .ok p)
      (sized : Sized factors extent) :
    p.jointSize = assignments factors extent := by
  have sound := sound_of_resolve_dims accepted
  have planned := matched_of_resolve segments accepted
  obtain ⟨rfl, -, -⟩ := Plan.fits_of_resolve accepted
  have same : p.order.map p.extent = p.order.map extent := by
    apply List.map_congr_left
    intro c hc
    exact extent_eq_of_sized planned.sized sized ((mem_symbols_iff_occurs segments c).1 hc)
  rw [Plan.jointSize, Plan.sizes, sound.map_sizeOf fun _ hc => hc, volume_cast, same, Plan.order,
    Subscripts.symbols, segments]
  rfl

theorem checkLimit_eq_ok_iff {limit : Option Int} :
    p.checkLimit limit = .ok () ↔ ∀ bound, limit = some bound → p.jointSize ≤ bound := by
  cases limit with
  | none => simp [Plan.checkLimit]
  | some limit =>
    rw [Plan.checkLimit]
    split
    case isTrue exceeded => simp [exceeded]
    case isFalse within => simpa using within

/-- A contraction is refused for its size exactly when it is not affordable. -/
theorem affordable_iff {settings : Settings τ} (segments : s.inputs = factors.map (·.1))
    (accepted : Plan.resolve s (factors.map (·.2.dims)) policy = .ok p)
      (sized : Sized factors extent) :
    Affordable settings factors s.output extent ↔
      p.checkLimit settings.sizeLimit = .ok () ∧ p.checkOutput = .ok () := by
  have admitted : p.checkLimit settings.sizeLimit = .ok () ↔ Admitted settings factors extent := by
    rw [checkLimit_eq_ok_iff, jointSize_eq_assignments segments accepted sized]
    rfl
  have listed : p.checkOutput = .ok () ↔
      (∃ factor ∈ factors, volume (s.output.map extent) ≤ volume factor.2.shape) ∨
        volume (s.output.map extent) ≤ listLimit := by
    have takes : p.outputSize = (volume (s.output.map extent) : Nat) := by
      rw [(sound_of_resolve_dims accepted).outputSize_eq, (Plan.fits_of_resolve accepted).1,
        map_extent_output segments accepted sized]
    have fewer : p.operandShapes.any (fun shape => p.outputSize ≤ volume shape) ↔
        ∃ factor ∈ factors, volume (s.output.map extent) ≤ volume factor.2.shape := by
      rw [(Plan.fits_of_resolve accepted).2.1, takes, map_dims]
      simp
    unfold Plan.checkOutput
    split
    case isTrue fitting => simp [fewer.1 fitting]
    case isFalse longer => rw [takes, checkList_natCast_eq_ok_iff, or_iff_right (mt fewer.2 longer)]
  rw [admitted, listed]
  exact ⟨fun ⟨limit, room⟩ => ⟨limit, room⟩, fun ⟨limit, room⟩ => ⟨limit, room⟩⟩

/-- Without a limit on the assignments, a contraction is affordable when its output takes no more
than one of its operands. -/
theorem affordable_of_volume_le {settings : Settings τ} {output : List Char}
    (unlimited : settings.sizeLimit = none) {factor : Factor ε} (here : factor ∈ factors)
    (fewer : volume (output.map extent) ≤ volume factor.2.shape) :
    Affordable settings factors output extent where
  admitted limit found := by
    rw [unlimited] at found
    cases found
  listed := .inl ⟨factor, here, fewer⟩

theorem contractWith_eq {run : Runner ε} {settings : Settings τ} {wording : Wording}
    (asked : wording.resolve = .ok s) (name : Option String) :
    contractWith run settings wording (operands factors) name = (do
      let plan ← settings.plan s (factors.map (·.2.dims))
      run plan (factors.map (·.2)) name) := by
  simp only [contractWith, expectReals_operands, ok_bind, Settings.planWording, asked, List.map_map]
  rfl

/-- A limit looks at the number of joint assignments only. -/
theorem checkLimit_of_jointSize_eq {q : Plan} (same : q.jointSize = p.jointSize)
    {limit : Option Int} (within : p.checkLimit limit = .ok ()) : q.checkLimit limit = .ok () := by
  cases limit with
  | none => rfl
  | some limit =>
    simp only [Plan.checkLimit, same] at within ⊢
    split at within
    case isTrue => cases within
    case isFalse admitted => exact if_neg admitted

theorem plan_eq_ok_iff {settings : Settings τ} {shapes : List (List Int)} :
    settings.plan s shapes = .ok p ↔
      Plan.resolve s shapes settings.repetition = .ok p ∧
      p.checkLimit settings.sizeLimit = .ok () := by
  rw [Settings.plan]
  cases Plan.resolve s shapes settings.repetition with
  | error fault => simp
  | ok plan =>
    rw [ok_bind, bind_eq_ok_iff, Except.ok.injEq]
    constructor
    · rintro ⟨_, limit, same⟩
      cases same
      exact ⟨rfl, limit⟩
    · rintro ⟨rfl, limit⟩
      exact ⟨(), limit, rfl⟩

/-- A request with factors that fit together is planned, unless it is too large. -/
theorem Factor.Asked.exists_plan {settings : Settings τ} {output : List Char} {wording : Wording}
    (asked : Asked factors output wording)
    (matched : Matched settings.repetition factors output extent)
    (affordable : Affordable settings factors output extent) :
    ∃ (s : Subscripts) (p : Plan), wording.resolve = .ok s ∧ s.inputs = factors.map (·.1) ∧
      s.output = output ∧ Plan.resolve s (factors.map (·.2.dims)) settings.repetition = .ok p ∧
      settings.plan s (factors.map (·.2.dims)) = .ok p ∧ p.checkOutput = .ok () := by
  obtain ⟨s, resolved, segments, rfl⟩ := asked
  obtain ⟨p, accepted⟩ := resolve_of_matched segments matched
  obtain ⟨limit, checked⟩ := (affordable_iff segments accepted matched.sized).1 affordable
  exact ⟨s, p, resolved, segments, rfl, accepted, plan_eq_ok_iff.2 ⟨accepted, limit⟩, checked⟩

/-- What is planned for tensors is sound, and its sizes explain their shapes. -/
theorem sound_of_planWording {settings : Settings τ} {wording : Wording} {tensors : List (Tensor ε)}
    (planned : settings.planWording wording (tensors.map Tensor.dims) = .ok p) :
    p.Sound ∧ tensors.map (·.shape) = p.subscripts.inputs.map (·.map p.extent) := by
  obtain ⟨s, -, planned⟩ := bind_eq_ok_iff.1 planned
  obtain ⟨accepted, -⟩ := plan_eq_ok_iff.1 planned
  have natural : tensors.map Tensor.dims = (tensors.map (·.shape)).map (·.map Int.ofNat) := by
    rw [List.map_map]
    rfl
  rw [natural] at accepted
  have explained := Plan.shapes_eq_of_resolve accepted
  have sound := Plan.sound_of_resolve accepted
  obtain ⟨rfl, -, -⟩ := Plan.fits_of_resolve accepted
  exact ⟨sound, explained⟩

section Answer

variable [Zero ε] [CommSemiring K] {run : Runner ε} {lift : ε → K} {encode : K → ε}

/-- An accepted contraction whose output a list can hold gives the sums of products over its
factors. -/
theorem Runner.Evaluates.entries (evaluates : run.Evaluates lift encode)
    (segments : s.inputs = factors.map (·.1))
    (accepted : Plan.resolve s (factors.map (·.2.dims)) policy = .ok p) (distinct : s.output.Nodup)
    (sized : Sized factors extent) (checked : p.checkOutput = .ok ()) (name : Option String) :
    ∃ t, run p (factors.map (·.2)) name = .ok t ∧ t.shape = s.output.map extent ∧
      ∀ o, InRange (s.output.map extent) o → t.entry o = encode
        (sumOver extent s.contracted (product lift factors) (Assignment.value s.output o)) := by
  have planned := matched_of_resolve segments accepted
  have sound := sound_of_resolve_dims accepted
  have output := map_extent_output segments accepted sized
  have sums := sumOver_extent (f := product lift factors) segments accepted sized
  obtain ⟨rfl, -, -⟩ := Plan.fits_of_resolve accepted
  obtain ⟨t, ran, shape, entries⟩ :=
    evaluates.run_eq name sound distinct segments planned.sized checked
  refine ⟨t, ran, shape.trans output, fun o ho => ?_⟩
  rw [entries o (output ▸ ho), sums]

/-- A request with factors that fit together is granted unless it is too large. -/
theorem Runner.Evaluates.exists_answer (evaluates : run.Evaluates lift encode)
    {settings : Settings τ} {output : List Char} {wording : Wording}
    (asked : Asked factors output wording) (distinct : output.Nodup)
    (matched : Matched settings.repetition factors output extent)
    (affordable : Affordable settings factors output extent)
    (name : Option String) :
    ∃ (s : Subscripts) (t : Tensor ε), s.inputs = factors.map (·.1) ∧ s.output = output ∧
      contractWith run settings wording (operands factors) name = .ok t ∧
      t.shape = output.map extent ∧
      ∀ o, InRange (output.map extent) o → t.entry o = encode
        (sumOver extent s.contracted (product lift factors) (Assignment.value output o)) := by
  obtain ⟨s, p, resolved, segments, rfl, accepted, planned, checked⟩ :=
    asked.exists_plan matched affordable
  obtain ⟨t, ran, shape, entries⟩ :=
    evaluates.entries segments accepted distinct matched.sized checked name
  refine ⟨s, t, segments, rfl, ?_, shape, entries⟩
  rw [contractWith_eq resolved, planned, ok_bind, ran]

end Answer

theorem contracted_eq_nil (segments : s.inputs = factors.map (·.1))
    (kept : ∀ c, Occurs factors c → c ∈ s.output) : s.contracted = [] := by
  rw [List.eq_nil_iff_forall_not_mem]
  intro c summed
  obtain ⟨named, absent⟩ := Subscripts.mem_contracted.1 summed
  exact absent (kept c ((mem_symbols_iff_occurs segments c).1 named))

/-- A contraction whose output keeps every symbol sums over nothing: its entries are products over
the factors. -/
theorem Factor.Asked.exists_einsum [CommSemiring K] [BulkRoutine K] {factors : List (Factor K)}
    {settings : Settings τ} {output : List Char} {wording : Wording}
    (asked : Asked factors output wording) (loop : settings.strategy = .loop)
    (distinct : output.Nodup) (matched : Matched settings.repetition factors output extent)
    (affordable : Affordable settings factors output extent)
    (kept : ∀ c, Occurs factors c → c ∈ output)
    (name : Option String) :
    ∃ t, einsum settings wording (operands factors) name = .ok t ∧ t.shape = output.map extent ∧
      ∀ o, InRange (output.map extent) o →
        t.entry o = product id factors (Assignment.value output o) := by
  obtain ⟨s, t, segments, rfl, ran, shape, entries⟩ :=
    runReal_evaluates.exists_answer asked distinct matched affordable name
  refine ⟨t, ?_, shape, fun o ho => ?_⟩
  · rw [einsum_eq_contractWith loop]
    exact ran
  · rw [entries o ho, contracted_eq_nil segments kept]
    rfl

end TensorCalculus
