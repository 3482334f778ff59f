import NaturalDeduction.Proof.Basic

set_option autoImplicit false
set_option relaxedAutoImplicit false

namespace NaturalDeduction

/-- A step as a line: its number, a bar for each subproof around it, its formula, and the rule with the steps
it cites. -/
def Step.listing (s : Step) : String :=
  let cited :=
    if s.dependencies.isEmpty then ""
    else " " ++ String.intercalate ", " (s.dependencies.map StepId.text)
  s.line.text ++ ". " ++ String.join (List.replicate s.depth "| ") ++ s.formula ++ "  [" ++
    s.rule.key ++ cited ++ "]"

def Proof.listing (p : Proof) : String :=
  "Goal: " ++ p.goal ++ "\n" ++ String.join (p.steps.map fun s => s.listing ++ "\n")

end NaturalDeduction
