import NaturalDeduction.Proof.Derivation

set_option autoImplicit false
set_option relaxedAutoImplicit false

namespace NaturalDeduction.Proof

def lineFor (p : Proof) : Placement → Except Exhausted LineNumber
  | .continues => p.nextLine
  | .opens => .ok p.subproofLine
  | .closes => p.closingLine

def depthFor (p : Proof) : Placement → Nat
  | .continues => p.depth
  | .opens => p.depth + 1
  | .closes => p.depth - 1

/-- The step that writes a derivation down as the next line of a proof. -/
def stepOf (p : Proof) (kind : RuleKind) (d : Derivation) : Except Exhausted Step :=
  (p.lineFor d.placement).map fun line =>
    { id := p.nextId
      line := line
      formula := d.formula
      rule := kind
      dependencies := d.dependencies
      depth := p.depthFor d.placement
      opensSubproof := d.placement == .opens
      closesSubproof := d.placement == .closes
      cases := d.cases }

/-- What a rule derives from selected steps, if there are as many of them as the rule cites, they exist and
they have the shape that the rule asks for. -/
def deriveFrom (p : Proof) (rule : Rule) (selected : List StepId) (input : Option String) :
    Option Derivation := do
  guard (selected.length = rule.citations)
  let cited ← selected.mapM p.step?
  p.derive rule.kind cited input

/-- The step that a rule gives from selected steps, or `none` if it does not apply to them. -/
def apply (p : Proof) (rule : Rule) (selected : List StepId) (input : Option String) :
    Except Exhausted (Option Step) :=
  match p.deriveFrom rule selected input with
  | none => .ok none
  | some d => (p.stepOf rule.kind d).map some

end NaturalDeduction.Proof
