import TensorCalculus.Bulk.Run
import TensorCalculus.Proofs.Contraction.Requests

/-!
# Contraction in stages

A contraction may be carried out in stages: some of the operands are contracted first, into an
intermediate tensor that keeps the symbols still needed, and this tensor is contracted with the
other operands. In exact arithmetic the stages give what the contraction gives in one go, whichever
operands come first and in whatever order they are named. The intermediate tensor must not be too
long for a list, however, and where an axis is empty a stage may have more assignments than the
contraction in one go, and be refused for their number. -/

namespace TensorCalculus

open TensorCalculus.Layout TensorCalculus.Outcome
open Factor

variable {ε K τ : Type}

namespace Factor

/-- The symbols that two groups of factors share with each other or with the output, as far as the
first group has them. -/
def Keeps (kept : List Char) (inside outside : List (Factor ε)) (output : List Char) : Prop :=
  ∀ c, c ∈ kept ↔ Occurs inside c ∧ (Occurs outside c ∨ c ∈ output)

variable [CommSemiring K] [Zero ε]

/-- Whether memory holds the elements of the factors. -/
def Stored (factors : List (Factor ε)) : Prop :=
  ∀ factor ∈ factors, elementBytes * factor.2.data.size ≤ wordLimit

/-- Whether the limit on the number of assignments admits a stage of a contraction. It does anyway
unless an operand of the contraction is empty. -/
def AdmitsStage (settings : Settings τ) (whole stage : List (Factor ε)) (extent : Char → Nat) :
    Prop :=
  (∃ factor ∈ whole, 0 ∈ factor.2.shape) → Admitted settings stage extent

theorem product_append (lift : ε → K) (left right : List (Factor ε)) (τ : Char → Nat) :
    product lift (left ++ right) τ = product lift left τ * product lift right τ := by
  simp [product]

theorem product_perm (lift : ε → K) {left right : List (Factor ε)} (rearranged : left.Perm right)
    (τ : Char → Nat) : product lift left τ = product lift right τ :=
  (rearranged.map _).prod_eq

end Factor

/-- Whether a contraction may be carried out in stages. The operands are divided into two groups;
the group inside is contracted first, keeping the symbols that the other group or the output has,
and the result takes its place among the operands outside. The first stage succeeds if a list can
hold its result, the last one succeeds whenever there is an intermediate tensor, and gives the
elements that the contraction gives in one go; only the limit on the number of assignments can still
refuse a stage, where an operand is empty. -/
def ContractsInStages (settings : Settings τ)
    (contract : Wording → List (Operand ε) → Option String → Except Fault (Tensor ε)) : Prop :=
  ∀ (whole inside outside : List (Factor ε)) (output kept : List Char),
    whole.Perm (inside ++ outside) →
    output.Nodup → kept.Nodup → Keeps kept inside outside output → Stored whole →
    ∀ (wording : Wording) (name : Option String) (t : Tensor ε), Asked whole output wording →
    contract wording (operands whole) name = .ok t →
    ∀ extent : Char → Nat, Sized whole extent → volume (kept.map extent) ≤ listLimit →
    ∀ (first : Wording) (firstName : Option String), Asked inside kept first →
    AdmitsStage settings whole inside extent →
    ∃ u, contract first (operands inside) firstName = .ok u ∧
      ∀ (next : List (Factor ε)) (second : Wording) (secondName : Option String),
        next.Perm ((kept, u) :: outside) → Asked next output second →
          AdmitsStage settings whole next extent →
        ∃ v, contract second (operands next) secondName = .ok v ∧ v.shape = t.shape ∧
          v.data = t.data

section Stage

variable {whole inside outside next : List (Factor ε)} {output kept : List Char} {u : Tensor ε}
  {c : Char}

theorem occurs_iff_of_parts (parts : whole.Perm (inside ++ outside)) :
    Occurs whole c ↔ Occurs inside c ∨ Occurs outside c := by
  simp only [Occurs, parts.mem_iff, List.mem_append, or_and_right, exists_or]

theorem occurs_iff_of_replaced (replaced : next.Perm ((kept, u) :: outside)) :
    Occurs next c ↔ c ∈ kept ∨ Occurs outside c := by
  simp only [Occurs, replaced.mem_iff, List.mem_cons, or_and_right, exists_or, exists_eq_left]

theorem volume_map_eq_prod {cs : List Char} (distinct : cs.Nodup) (extent : Char → Nat) :
    volume (cs.map extent) = ∏ c ∈ cs.toFinset, extent c := by
  rw [List.prod_toFinset extent distinct]
  clear distinct
  induction cs with
  | nil => rfl
  | cons c cs ih => rw [List.map_cons, volume_cons, ih, List.prod_cons]

/-- Where no symbol is empty, fewer symbols have no more assignments. -/
theorem assignments_le {few many : List (Factor ε)} {extent : Char → Nat}
    (subset : ∀ c, Occurs few c → Occurs many c) (nonempty : ∀ c, Occurs many c → extent c ≠ 0) :
    assignments few extent ≤ assignments many extent := by
  have mem_iff (factors : List (Factor ε)) (c : Char) :
      c ∈ (firstOccurrences (factors.map (·.1)).flatten).toFinset ↔ Occurs factors c := by
    simp [Occurs]
  rw [assignments, assignments, volume_map_eq_prod (nodup_firstOccurrences _),
    volume_map_eq_prod (nodup_firstOccurrences _)]
  apply Finset.prod_le_prod_of_subset_of_one_le'
  · intro c hc
    rw [mem_iff] at hc ⊢
    exact subset c hc
  · intro c hc _
    rw [mem_iff] at hc
    exact Nat.one_le_iff_ne_zero.2 (nonempty c hc)

/-- A stage with no other symbols is admitted where the whole contraction is. -/
theorem Factor.AdmitsStage.admitted {settings : Settings τ} {stage : List (Factor ε)}
    {extent : Char → Nat} (admits : AdmitsStage settings whole stage extent)
    (sized : Sized whole extent) (all : Admitted settings whole extent)
    (subset : ∀ c, Occurs stage c → Occurs whole c) : Admitted settings stage extent := by
  by_cases empty : ∃ factor ∈ whole, 0 ∈ factor.2.shape
  · exact admits empty
  intro limit found
  have nonempty : ∀ c, Occurs whole c → extent c ≠ 0 := by
    rintro c ⟨factor, here, hc⟩ vanishes
    apply empty
    refine ⟨factor, here, ?_⟩
    rw [sized factor here, ← vanishes]
    exact List.mem_map_of_mem hc
  exact (Int.ofNat_le.2 (assignments_le subset nonempty)).trans (all limit found)

/-- What a list can hold where memory holds the factors. -/
theorem Factor.Stored.volume_le (stored : Stored whole) {settings : Settings τ}
    {extent : Char → Nat} (affordable : Affordable settings whole output extent) :
    volume (output.map extent) ≤ listLimit := by
  rcases affordable.listed with ⟨factor, here, fewer⟩ | listed
  · have held := stored factor here
    rw [factor.2.size_data] at held
    unfold listLimit
    unfold elementBytes at held ⊢
    omega
  · exact listed

/-- The last stage has no symbols of its own. -/
theorem occurs_of_occurs_next (parts : whole.Perm (inside ++ outside))
    (keeps : Keeps kept inside outside output) (replaced : next.Perm ((kept, u) :: outside))
      (c : Char) (occurs : Occurs next c) : Occurs whole c := by
  rw [occurs_iff_of_parts parts]
  rcases (occurs_iff_of_replaced replaced).1 occurs with hc | without
  · exact .inl ((keeps c).1 hc).1
  · exact .inr without

/-- The first stage can be afforded where a list can hold its result. -/
theorem affordable_inside {settings : Settings τ} {extent : Char → Nat}
    (affordable : Affordable settings whole output extent)
    (parts : whole.Perm (inside ++ outside)) (sized : Sized whole extent)
    (admits : AdmitsStage settings whole inside extent)
    (listed : volume (kept.map extent) ≤ listLimit) : Affordable settings inside kept extent where
  admitted := admits.admitted sized affordable.admitted fun _ within =>
    (occurs_iff_of_parts parts).2 (.inl within)
  listed := .inr listed

/-- The last stage can be afforded: its result is that of the whole. -/
theorem affordable_next {settings : Settings τ} {extent : Char → Nat}
    (affordable : Affordable settings whole output extent)
    (parts : whole.Perm (inside ++ outside)) (keeps : Keeps kept inside outside output)
    (sized : Sized whole extent) (stored : Stored whole)
    (replaced : next.Perm ((kept, u) :: outside))
    (admits : AdmitsStage settings whole next extent) : Affordable settings next output extent where
  admitted := admits.admitted sized affordable.admitted
    (occurs_of_occurs_next parts keeps replaced)
  listed := .inr (stored.volume_le affordable)

/-- The factors inside fit together for the symbols that are kept. -/
theorem matched_inside {policy : RepetitionPolicy} {extent : Char → Nat}
    (parts : whole.Perm (inside ++ outside)) (keeps : Keeps kept inside outside output)
    (matched : Matched policy whole output extent) :
    Matched policy inside kept extent := by
  have within : ∀ factor ∈ inside, factor ∈ whole := fun factor here =>
    parts.mem_iff.2 (List.mem_append_left outside here)
  constructor
  · intro factor here
    exact matched.sized factor (within factor here)
  · intro c hc
    exact ((keeps c).1 hc).1
  · intro rejects factor here
    exact matched.nodup_of_reject rejects factor (within factor here)

/-- The intermediate tensor fits together with the factors outside. -/
theorem matched_next {policy : RepetitionPolicy} {extent : Char → Nat}
    (parts : whole.Perm (inside ++ outside)) (keeps : Keeps kept inside outside output)
    (matched : Matched policy whole output extent) (distinct : kept.Nodup)
    (shape : u.shape = kept.map extent) (replaced : next.Perm ((kept, u) :: outside)) :
    Matched policy next output extent := by
  have origin : ∀ factor ∈ next, factor = (kept, u) ∨ factor ∈ whole := by
    intro factor here
    rcases List.mem_cons.1 (replaced.mem_iff.1 here) with rfl | without
    · exact .inl rfl
    · exact .inr (parts.mem_iff.2 (List.mem_append_right inside without))
  constructor
  · intro factor here
    rcases origin factor here with rfl | there
    · exact shape
    · exact matched.sized factor there
  · intro c hc
    rw [occurs_iff_of_replaced replaced]
    rcases (occurs_iff_of_parts parts).1 (matched.occurs_of_mem_output c hc) with within | without
    · exact .inl ((keeps c).2 ⟨within, .inr hc⟩)
    · exact .inr without
  · intro rejects factor here
    rcases origin factor here with rfl | there
    · exact distinct
    · exact matched.nodup_of_reject rejects factor there

/-- The symbols summed over are divided between the stages. -/
theorem contracted_perm_append {s s₁ s₂ : Subscripts} (parts : whole.Perm (inside ++ outside))
    (keeps : Keeps kept inside outside output) (replaced : next.Perm ((kept, u) :: outside))
    (all : s.inputs = whole.map (·.1)) (allOutput : s.output = output)
    (first : s₁.inputs = inside.map (·.1))
    (firstOutput : s₁.output = kept) (second : s₂.inputs = next.map (·.1))
    (secondOutput : s₂.output = output) :
    s.contracted.Perm (s₂.contracted ++ s₁.contracted) := by
  have total (c : Char) : c ∈ s.contracted ↔ (Occurs inside c ∨ Occurs outside c) ∧ c ∉ output := by
    rw [Subscripts.mem_contracted, mem_symbols_iff_occurs all, occurs_iff_of_parts parts, allOutput]
  have early (c : Char) : c ∈ s₁.contracted ↔ Occurs inside c ∧ c ∉ kept := by
    rw [Subscripts.mem_contracted, mem_symbols_iff_occurs first, firstOutput]
  have late (c : Char) : c ∈ s₂.contracted ↔ (c ∈ kept ∨ Occurs outside c) ∧ c ∉ output := by
    rw [Subscripts.mem_contracted, mem_symbols_iff_occurs second, occurs_iff_of_replaced replaced,
      secondOutput]
  have apart : s₂.contracted.Disjoint s₁.contracted := by
    intro c there here
    rw [late] at there
    rw [early] at here
    have := keeps c
    tauto
  refine (List.perm_ext_iff_of_nodup (s.nodup_symbols.filter _)
    ((s₂.nodup_symbols.filter _).append (s₁.nodup_symbols.filter _) apart)).2 fun c => ?_
  change c ∈ s.contracted ↔ c ∈ s₂.contracted ++ s₁.contracted
  rw [List.mem_append, total, late, early]
  have := keeps c
  tauto

section Sums

variable {L : Type} [AddCommMonoid K] [AddCommMonoid L] {s s₁ s₂ : Subscripts} {extent : Char → Nat}

/-- The sums of the last stage are those of the whole contraction. What the factors inside
contribute is stored by the intermediate tensor, and the factors outside act on it by an additive
map: the symbols of the first stage occur in none of them, so the map moves into the inner sum. -/
theorem sumOver_stages (parts : whole.Perm (inside ++ outside))
    (keeps : Keeps kept inside outside s.output) (replaced : next.Perm ((kept, u) :: outside))
      (all : s.inputs = whole.map (·.1)) (first : s₁.inputs = inside.map (·.1))
    (firstOutput : s₁.output = kept) (second : s₂.inputs = next.map (·.1))
    (secondOutput : s₂.output = s.output)
    {f : (Char → Nat) → K} (inner : DependsOn f {c | Occurs inside c})
    {h : (Char → Nat) → K →+ L} (outer : DependsOn h {c | Occurs outside c}) (stored : List Nat → K)
    (stores : ∀ a, InRange (kept.map extent) a →
      stored a = sumOver extent s₁.contracted f (Assignment.value kept a))
    {o : List Nat} (ho : InRange (s.output.map extent) o) :
    sumOver extent s₂.contracted (fun ρ => h ρ (stored (kept.map ρ)))
      (Assignment.value s.output o) =
      sumOver extent s.contracted (fun ρ => h ρ (f ρ)) (Assignment.value s.output o) := by
  have early (c : Char) : c ∈ s₁.contracted ↔ Occurs inside c ∧ c ∉ kept := by
    rw [Subscripts.mem_contracted, mem_symbols_iff_occurs first, firstOutput]
  have apart : ∀ c ∈ s₁.contracted, ¬ Occurs outside c := by
    intro c hc occurs
    obtain ⟨within, dropped⟩ := (early c).1 hc
    exact dropped ((keeps c).2 ⟨within, .inl occurs⟩)
  rw [← sumOver_staged outer apart
    (contracted_perm_append parts keeps replaced all rfl first firstOutput second secondOutput)]
  apply sumOver_congr
  intro ρ within elsewhere
  have inRange : InRange (kept.map extent) (kept.map ρ) := by
    apply (inRange_map_iff rfl).2
    intro c hc
    by_cases summed : c ∈ s₂.contracted
    · exact within c summed
    · have output : c ∈ s.output := by
        by_contra missing
        apply summed
        rw [Subscripts.mem_contracted, mem_symbols_iff_occurs second,
          occurs_iff_of_replaced replaced, secondOutput]
        exact ⟨.inl hc, missing⟩
      rw [elsewhere c summed]
      exact Assignment.value_lt ho output
  have same : sumOver extent s₁.contracted f (Assignment.value kept (kept.map ρ)) =
      sumOver extent s₁.contracted f ρ := by
    apply dependsOn_sumOver inner
    rintro c ⟨occurs, remains⟩
    apply Assignment.value_map ρ
    by_contra missing
    exact remains ((early c).2 ⟨occurs, missing⟩)
  rw [stores _ inRange, same]

end Sums

variable [Zero ε] [CommSemiring K] {run : Runner ε} {lift : ε → K} {encode : K → ε}

/-- A contraction that computes in a semiring may be carried out in stages. -/
theorem Runner.Evaluates.contractsInStages (evaluates : run.Evaluates lift encode)
    (settings : Settings τ) : ContractsInStages settings (contractWith run settings) := by
  intro whole inside outside output kept parts distinct keptDistinct keeps stored wording name t
    asked contracted extent sized listed first firstName firstAsked firstAdmits
  obtain ⟨s, resolved, segments, rfl⟩ := asked
  rw [contractWith_eq resolved] at contracted
  obtain ⟨p, planned, ran⟩ := bind_eq_ok_iff.1 contracted
  obtain ⟨accepted, limit⟩ := plan_eq_ok_iff.1 planned
  have checked := evaluates.checkOutput_of_run ran
  have affordable := (affordable_iff segments accepted sized).2 ⟨limit, checked⟩
  have matched := { matched_of_resolve segments accepted with sized }
  obtain ⟨t', ran', shape, entries⟩ :=
    evaluates.entries segments accepted distinct sized checked name
  obtain rfl : t' = t := Except.ok.inj (ran'.symm.trans ran)
  -- The first stage.
  have firstAffordable := affordable_inside affordable parts sized firstAdmits listed
  obtain ⟨s₁, u, segments₁, output₁, staged, shape₁, entries₁⟩ :=
    evaluates.exists_answer firstAsked keptDistinct
      (matched_inside parts keeps matched) firstAffordable firstName
  refine ⟨u, staged, fun next second secondName replaced secondAsked secondAdmits => ?_⟩
  -- The last stage.
  have secondAffordable :=
    affordable_next affordable parts keeps sized stored replaced secondAdmits
  obtain ⟨s₂, v, segments₂, output₂, finished, shape₂, entries₂⟩ :=
    evaluates.exists_answer secondAsked distinct
      (matched_next parts keeps matched keptDistinct shape₁ replaced) secondAffordable secondName
  have shapes : v.shape = t'.shape := shape₂.trans shape.symm
  refine ⟨v, finished, shapes, Tensor.data_ext shapes fun o ho => ?_⟩
  rw [shape₂] at ho
  have outer :
      DependsOn (fun ρ => AddMonoidHom.mulRight (product lift outside ρ)) {c | Occurs outside c} :=
    fun _ _ agree => congrArg AddMonoidHom.mulRight (dependsOn_product lift outside agree)
  have last (ρ : Char → Nat) : product lift next ρ =
      AddMonoidHom.mulRight (product lift outside ρ) (lift (u.entry (kept.map ρ))) := by
    rw [product_perm lift replaced, product_cons, AddMonoidHom.mulRight_apply]
  have once (ρ : Char → Nat) : product lift whole ρ =
      AddMonoidHom.mulRight (product lift outside ρ) (product lift inside ρ) := by
    rw [product_perm lift parts, product_append, AddMonoidHom.mulRight_apply]
  rw [entries o ho, entries₂ o ho, funext last, funext once]
  congr 1
  refine sumOver_stages parts keeps replaced segments segments₁ output₁ segments₂ output₂
    (dependsOn_product lift inside) outer (fun a => lift (u.entry a)) (fun a ha => ?_) ho
  rw [entries₁ a ha, evaluates.lift_encode]

end Stage

/-- In exact arithmetic contractions may be carried out in stages: those of rational tensors by the
loop, those under or and and whatever the entries are, those that count, and those of rational or
infinite lengths. -/
theorem contractions_in_stages [BulkRoutine ℚ] (settings : Settings τ) :
    (settings.strategy = .loop → ContractsInStages settings (einsum (α := ℚ) settings)) ∧
      (∀ (β : Type) [Zero β] [One β] [LT β] [DecidableLT β], (0 : β) < 1 → ¬ (0 : β) < 0 →
        ContractsInStages settings (semiringEinsum settings (.boolean : SumProduct β))) ∧
      ContractsInStages settings (semiringEinsum settings (.counting : SumProduct ℚ)) ∧
      ContractsInStages settings (semiringEinsum settings (.minPlus (⊤ : WithTop ℚ))) := by
  have underSums {β : Type} [Zero β] {s : SumProduct β} {encode : s.Carrier → β}
      (exact : s.Exact encode) : ContractsInStages settings (semiringEinsum settings s) :=
    letI := exact.semiring
    (runSumProduct_evaluates exact).contractsInStages settings
  refine ⟨?_, fun β _ _ _ _ positive irreflexive =>
    underSums (SumProduct.boolean_exact positive irreflexive), underSums SumProduct.counting_exact,
    underSums SumProduct.minPlus_exact⟩
  intro loop
  rw [einsum_eq_contractWith loop]
  exact runReal_evaluates.contractsInStages settings

attribute [local instance] Bulk.routine

/-- A contraction of rational tensors with the settings as they come, but for the limit on
assignments. -/
def limitedContraction (limit : Option Int) (inputs : List (List Char)) (output : List Char)
    (tensors : List (Tensor ℚ)) : Except Fault (Tensor ℚ) :=
  einsum { tolerance := 0, sizeLimit := limit : Settings ℚ } (.understood { inputs, output })
    (tensors.map .real) none

/-- No element, under rows that are more than a list can have items. -/
def endlessRows : Tensor ℚ := ⟨"endless", ["row", "column"], [2 ^ 64, 0], #[], rfl, rfl⟩

def emptyRows : Tensor ℚ := ⟨"empty", ["row", "column"], [3, 0], #[], rfl, rfl⟩

def wideRows : Tensor ℚ := ⟨"wide", ["row", "place"], [3, 2], #[1, 2, 3, 4, 5, 6], rfl, rfl⟩

/-- A contraction in one go may be carried out where its stages are refused: the intermediate tensor
is too long for a list, or the stage without the empty axis has more assignments than the limit
admits. -/
theorem contraction_refused_in_stages :
    (∃ t, limitedContraction none [['i', 'j'], ['i', 'k']] [] [endlessRows, endlessRows] = .ok t) ∧
      limitedContraction none [['i', 'j']] ['i'] [endlessRows] = .error (.range .listSize) ∧
      (∃ t, limitedContraction (some 1) [['i', 'j'], ['i', 'k']] [] [emptyRows, wideRows] = .ok t) ∧
      limitedContraction (some 1) [['i', 'k']] ['i'] [wideRows] = .error (.jointSize "ik->i" 6 1) ∧
      ∃ u, limitedContraction (some 1) [['i', 'j']] ['i'] [emptyRows] = .ok u ∧
        limitedContraction (some 1) [['i'], ['i', 'k']] [] [u, wideRows] =
          .error (.jointSize "i,ik->" 6 1) := by
  refine ⟨⟨_, rfl⟩, rfl, ⟨_, rfl⟩, rfl, ⟨_, rfl, rfl⟩⟩

def firstMatrix : Tensor ℚ := ⟨"first", ["i", "j"], [2, 2], #[1, 0, 1, 1 / 2], rfl, rfl⟩

def secondMatrix : Tensor ℚ := ⟨"second", ["j", "k"], [2, 2], #[0, 7, 0, 0], rfl, rfl⟩

def thirdMatrix : Tensor ℚ := ⟨"third", ["k", "l"], [2, 2], #[0, 0, 5, -3], rfl, rfl⟩

def factorsInRow : List (Factor ℚ) :=
  [(['i', 'j'], firstMatrix), (['j', 'k'], secondMatrix), (['k', 'l'], thirdMatrix)]

/-- Three matrices in a row, the last two of them first, their product being kept the other way
round. The limit admits just the sixteen assignments of the whole. -/
theorem contractions_in_stages_matrices :
    ∃ t u v, limitedContraction (some 16) [['i', 'j'], ['j', 'k'], ['k', 'l']] ['l', 'i']
        [firstMatrix, secondMatrix, thirdMatrix] = .ok t ∧
      limitedContraction (some 16) [['k', 'l'], ['j', 'k']] ['l', 'j'] [thirdMatrix, secondMatrix] =
        .ok u ∧
      limitedContraction (some 16) [['l', 'j'], ['i', 'j']] ['l', 'i'] [u, firstMatrix] = .ok v ∧
      v.shape = t.shape ∧ v.data = t.data := by
  have stages :=
    (contractions_in_stages { tolerance := 0, sizeLimit := some 16 : Settings ℚ }).1 rfl
  have parts : factorsInRow.Perm
      ([(['k', 'l'], thirdMatrix), (['j', 'k'], secondMatrix)] ++ [(['i', 'j'], firstMatrix)]) :=
    List.reverse_perm [(['k', 'l'], thirdMatrix), (['j', 'k'], secondMatrix),
      (['i', 'j'], firstMatrix)]
  have keeps :
      Keeps ['l', 'j'] [(['k', 'l'], thirdMatrix), (['j', 'k'], secondMatrix)]
        [(['i', 'j'], firstMatrix)]
      ['l', 'i'] := by
    intro c
    simp only [Occurs, List.mem_cons, List.not_mem_nil, or_false, exists_eq_or_imp, exists_eq_left]
    grind
  have stored : Stored factorsInRow := by
    simp [Stored, factorsInRow, firstMatrix, secondMatrix, thirdMatrix, elementBytes, wordLimit]
  have sized : Sized factorsInRow fun _ => 2 := by
    simp [Sized, factorsInRow, firstMatrix, secondMatrix, thirdMatrix]
  have inhabited : ¬ ∃ factor ∈ factorsInRow, 0 ∈ factor.2.shape := by
    simp [factorsInRow, firstMatrix, secondMatrix, thirdMatrix]
  have accepted : (limitedContraction (some 16) [['i', 'j'], ['j', 'k'], ['k', 'l']] ['l', 'i']
      [firstMatrix, secondMatrix, thirdMatrix]).toOption.isSome := by decide +kernel
  cases contracted : limitedContraction (some 16) [['i', 'j'], ['j', 'k'], ['k', 'l']] ['l', 'i']
    [firstMatrix, secondMatrix, thirdMatrix] with
  | error => rw [contracted] at accepted; cases accepted
  | ok t =>
    obtain ⟨u, staged, finish⟩ :=
      stages factorsInRow _ _ ['l', 'i'] ['l', 'j'] parts (by decide) (by decide) keeps stored
        (.understood { inputs := [['i', 'j'], ['j', 'k'], ['k', 'l']], output := ['l', 'i'] })
        none t ⟨_, rfl, rfl, rfl⟩ contracted (fun _ => 2) sized (by decide)
        (.understood { inputs := [['k', 'l'], ['j', 'k']], output := ['l', 'j'] })
        none ⟨_, rfl, rfl, rfl⟩ fun empty => absurd empty inhabited
    obtain ⟨v, finished, same⟩ :=
      finish _ (.understood { inputs := [['l', 'j'], ['i', 'j']], output := ['l', 'i'] }) none
        (.refl _) ⟨_, rfl, rfl, rfl⟩ fun empty => absurd empty inhabited
    exact ⟨t, u, v, rfl, staged, finished, same⟩

end TensorCalculus
