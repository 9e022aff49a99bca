import TensorCalculus.Literal.Arithmetic

/-!
# Places as they are given

The place that a text speaks of may itself be given as a literal. It is then shown as it is, and has
to be a number only where a mark is drawn under it. -/

namespace TensorCalculus.Literal

/-- A text with the column it speaks of, and below it the source with a mark under the column.
Without a source, or left of the first column, no mark is drawn. -/
def located (text : String) (column source : Literal) : Except Fault String :=
  match column, source with
  | null, _ => .ok text
  | column, null => .ok (text ++ s!" (col {column.shown})")
  | column, source => do
    let place := text ++ s!" (col {column.shown})"
    if ← stands .less column (int 1) then return place
    else
      let blanks ← (Literal.text " ").mul (← column.sub (int 1))
      return place ++ "\n  " ++ source.shown ++ "\n  " ++ blanks.shown ++ "^"

/-- A text under the operand it speaks of and the notation it arose in. -/
def framed (text : String) (operand label : Literal) : String :=
  let opening := match operand with
    | null => ""
    | operand => s!"operand {operand.shown}: "
  let closing := if label.isTrue then s!" (in '{label.shown}')" else ""
  opening ++ text ++ closing

example :
    (located "oops" (int 3) (.text "ab,c")).toOption = some "oops (col 3)\n  ab,c\n    ^" := by
  decide +kernel

end TensorCalculus.Literal
