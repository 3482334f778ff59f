import NaturalDeduction.Formula.Comparison
import NaturalDeduction.LineNumber
import NaturalDeduction.Rule

set_option autoImplicit false
set_option relaxedAutoImplicit false

namespace NaturalDeduction

structure OrCases where
  left : String
  right : String
  deriving DecidableEq, Repr

/-- A line of a proof: its formula as text, the rule it comes from, the steps it cites and the number of
subproofs around it. -/
structure Step where
  id : StepId
  line : LineNumber
  formula : String
  rule : RuleKind
  dependencies : List StepId
  depth : Nat
  opensSubproof : Bool
  closesSubproof : Bool
  cases : Option OrCases
  deriving DecidableEq

structure Proof where
  goal : String
  premises : List String
  steps : List Step
  depth : Nat
  nextId : StepId
  complete : Bool
  deriving DecidableEq

namespace Proof

/-- The step with a number, the first one if there are more. -/
def step? (p : Proof) (id : StepId) : Option Step :=
  p.steps.find? (·.id == id)

def last? (p : Proof) : Option Step :=
  p.steps.getLast?

/-- The latest step that opens a subproof at the depth of the proof. -/
def openAssumption? (p : Proof) : Option Step :=
  if p.depth = 0 then none
  else p.steps.reverse.find? fun s => s.opensSubproof && s.depth == p.depth

def nextLine (p : Proof) : Except Exhausted LineNumber :=
  match p.last? with
  | some last => last.line.nextSibling
  | none => .ok .first

def subproofLine (p : Proof) : LineNumber :=
  match p.last? with
  | some last => last.line.firstChild
  | none => .first

def closingLine (p : Proof) : Except Exhausted LineNumber :=
  match p.last? with
  | some last => last.line.afterSubproof
  | none => .ok .first

def nextIdAfter (p : Proof) (s : Step) : Except Exhausted StepId :=
  if p.nextId.val ≤ s.id.val then s.id.next else .ok p.nextId

def push (p : Proof) (s : Step) : Except Exhausted Proof :=
  (p.nextIdAfter s).map fun nextId =>
    { p with steps := p.steps ++ [s], depth := s.depth, nextId := nextId, complete := false }

/-- What pushing a step changes. -/
theorem push_eq_ok {p q : Proof} {s : Step} (h : p.push s = .ok q) :
    q.goal = p.goal ∧ q.premises = p.premises ∧ q.steps = p.steps ++ [s] ∧ q.depth = s.depth ∧
      q.complete = false := by
  unfold push at h
  cases next : p.nextIdAfter s with
  | error e =>
    rw [next] at h
    cases h
  | ok id =>
    rw [next] at h
    cases h
    exact ⟨rfl, rfl, rfl, rfl, rfl⟩

/-- The step with a number and the proof without it. -/
def remove? (p : Proof) (id : StepId) : Option (Step × Proof) :=
  (p.step? id).map fun s =>
    let rest := p.steps.eraseP (·.id == id)
    (s, { p with
      steps := rest
      depth := (rest.getLast?.map Step.depth).getD 0
      complete := false })

def blank (goal : String) (premises : List String) : Proof where
  goal := goal
  premises := premises
  steps := []
  depth := 0
  nextId := .first
  complete := false

def premiseStep (p : Proof) (formula : String) : Except Exhausted Step :=
  p.nextLine.map fun line =>
    { id := p.nextId
      line := line
      formula := formula
      rule := .premise
      dependencies := []
      depth := 0
      opensSubproof := false
      closesSubproof := false
      cases := none }

def pushPremise (p : Proof) (formula : String) : Except Exhausted Proof :=
  (p.premiseStep formula).bind p.push

/-- A new proof, in which each premise is a step. -/
def start (goal : String) (premises : List String) : Except Exhausted Proof :=
  premises.foldlM pushPremise (blank goal premises)

def reset (p : Proof) : Except Exhausted Proof :=
  start p.goal p.premises

/-- Whether the proof is done: no subproof is open, and the last step is the goal. -/
def isValid (p : Proof) : Bool :=
  match p.last? with
  | some last => p.depth == 0 && Comparison.sameFormula last.formula p.goal
  | none => false

def markComplete (p : Proof) : Proof :=
  { p with complete := p.isValid }

end Proof

end NaturalDeduction
