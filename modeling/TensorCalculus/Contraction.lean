import TensorCalculus.Plan

/-!
# The contraction loop

For every joint assignment the loop reads one element of each operand, combines them, and
accumulates the result in the output cell of the assignment. What the elements are, and how they are
combined, is left to a backend. -/

namespace TensorCalculus

variable {ε γ π : Type}

/-- How elements of type `ε` are combined to products of type `π` and collected in cells of type
`γ`. -/
structure Backend (ε γ π : Type) where
  blank : γ
  combine : List ε → π
  accumulate : γ → π → γ

namespace Backend

/-- The usual sum of products. -/
def real [Zero ε] [One ε] [Add ε] [Mul ε] : Backend ε ε ε where
  blank := 0
  combine values := values.foldl (· * ·) 1
  accumulate cell product := cell + product

end Backend

/-- A routine that contracts whole blocks of given shapes, by the subscripts of a text and by rules
of its own. Nothing is taken for granted of it. -/
class BulkRoutine (ε : Type) where
  contract (text : String) (blocks : List (List Nat × Array ε)) : Except Fault (Array ε)

namespace Contraction

/-- The element at an offset. -/
def readAt (buffer : Array ε) (offset : Int) : Except Fault ε :=
  match offset with
  | .ofNat i =>
    match buffer[i]? with
    | some x => .ok x
    | none => .error (.bounds (.offset offset buffer.size))
  | .negSucc _ => .error (.bounds (.offset offset buffer.size))

/-- One element of each buffer. -/
def gather : List (Array ε) → List Int → Except Fault (List ε)
  | buffer :: buffers, offset :: offsets => do
    let x ← readAt buffer offset
    let xs ← gather buffers offsets
    return x :: xs
  | _, _ => .ok []

/-- Accumulates the product of one assignment in its output cell. -/
def visit (backend : Backend ε γ π) (buffers : List (Array ε)) (out : Array γ) (o : Offsets) :
    Except Fault (Array γ) :=
  match gather buffers o.operands with
  | .error fault => .error fault
  | .ok values =>
    if 0 ≤ o.output ∧ o.output.toNat < out.size then
      .ok (out.modify o.output.toNat fun cell => backend.accumulate cell (backend.combine values))
    else .error (.bounds (.offset o.output out.size))

/-- The output buffer after all assignments have been visited. -/
def run (backend : Backend ε γ π) (plan : Plan) (buffers : List (Array ε)) :
    Except Fault (Array γ) :=
  Odometer.fold plan.wheels plan.operandShapes.length (visit backend buffers)
    (Array.replicate plan.outputSize.toNat backend.blank)

theorem run_eq (backend : Backend ε γ π) (plan : Plan) (buffers : List (Array ε)) :
    run backend plan buffers =
      plan.visits.foldlM (visit backend buffers)
        (Array.replicate plan.outputSize.toNat backend.blank) :=
  Odometer.fold_eq ..

theorem size_visit {backend : Backend ε γ π} {buffers : List (Array ε)} {out next : Array γ}
    {o : Offsets} (h : visit backend buffers out o = .ok next) : next.size = out.size := by
  unfold visit at h
  split at h
  · cases h
  · split at h
    · cases h
      simp
    · cases h

theorem size_of_foldlM_visit {backend : Backend ε γ π} {buffers : List (Array ε)}
    {os : List Offsets} {out result : Array γ}
    (h : os.foldlM (visit backend buffers) out = .ok result) :
    result.size = out.size := by
  induction os generalizing out with
  | nil =>
    cases h
    rfl
  | cons o os ih =>
    rw [List.foldlM_cons] at h
    cases step : visit backend buffers out o with
    | error fault => rw [step] at h; cases h
    | ok next =>
      rw [step] at h
      exact (ih h).trans (size_visit step)

/-- The loop fills exactly the output cells. -/
theorem size_run {backend : Backend ε γ π} {plan : Plan} {buffers : List (Array ε)} {out : Array γ}
    (h : run backend plan buffers = .ok out) : out.size = plan.outputSize.toNat := by
  rw [run_eq] at h
  simpa using size_of_foldlM_visit h

end Contraction

end TensorCalculus
