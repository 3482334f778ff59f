import NaturalDeduction.Formula.Operand
import NaturalDeduction.Formula.Parser
import NaturalDeduction.Formula.Printer
import NaturalDeduction.Proof.Basic

/-!
What each rule derives from the steps it cites. Cited formulas are kept as text: a conclusion that takes a
formula apart is the canonical text of the part, and one that puts formulas together sets the texts in
parentheses.
-/

set_option autoImplicit false
set_option relaxedAutoImplicit false

namespace NaturalDeduction

/-- Where a derived step stands with regard to the proof so far. -/
inductive Placement
  | continues | opens | closes
  deriving DecidableEq, Repr

structure Derivation where
  formula : String
  dependencies : List StepId
  placement : Placement
  cases : Option OrCases
  deriving DecidableEq

namespace Derivation

def continued (formula : String) (cited : List Step) : Derivation :=
  ⟨formula, cited.map (·.id), .continues, none⟩

def read? (s : String) : Option Formula :=
  (Formula.parse s).toOption

/-- Input that is not blank and spells a formula. -/
def readInput? (input : Option String) : Option String := do
  let s ← input
  guard (!Text.isBlank s)
  let _ ← read? s
  return s

def parenthesized (s : String) : String :=
  "(" ++ Text.trim s ++ ")"

/-- The first success among the two orders of a pair of steps. -/
def eitherOrder (a b : Step) (conclude : Step → Step → Option String) : Option String :=
  (conclude a b).or (conclude b a)

/-- The consequent of the second step, if the first one is its antecedent. -/
def detach? (minor major : Step) : Option String := do
  let (antecedent, consequent) ← (← read? major.formula).implication
  guard (Comparison.sameFormula minor.formula antecedent.text)
  return consequent.text

/-- The negated antecedent of the second step, if the first one denies its consequent. -/
def refute? (minor major : Step) : Option String := do
  let implication ← read? major.formula
  let negation ← read? minor.formula
  let (antecedent, consequent) ← implication.implication
  let denied ← negation.negated
  guard (Comparison.sameFormula denied.text consequent.text)
  return "~(" ++ antecedent.text ++ ")"

def assumption (input : Option String) : Option Derivation := do
  let s ← readInput? input
  return ⟨s, [], .opens, none⟩

def matched (conclude : Step → Step → Option String) : List Step → Option Derivation
  | [a, b] => do return continued (← eitherOrder a b conclude) [a, b]
  | _ => none

def conjunction : List Step → Option Derivation
  | [a, b] => do
    let _ ← read? a.formula
    let _ ← read? b.formula
    return continued (parenthesized a.formula ++ " ^ " ++ parenthesized b.formula) [a, b]
  | _ => none

def part (select : Formula → Option Formula) : List Step → Option Derivation
  | [a] => do return continued (← select (← read? a.formula)).text [a]
  | _ => none

/-- The disjunction of a single step and the input, in the order in which `arrange` puts them. -/
def disjunction (input : Option String) (arrange : String → String → String × String) :
    List Step → Option Derivation
  | [a] => do
    let _ ← read? a.formula
    let (left, right) := arrange a.formula (← readInput? input)
    return continued (parenthesized left ++ " | " ++ parenthesized right) [a]
  | _ => none

/-- The two cases of a single step that is a disjunction, which is repeated as it stands. -/
def caseSplit : List Step → Option Derivation
  | [a] => do
    let (left, right) ← (← read? a.formula).disjuncts
    return { continued a.formula [a] with cases := some ⟨left.text, right.text⟩ }
  | _ => none

/-- The implication from the open assumption to the last step, which closes the subproof. -/
def discharge (p : Proof) : Option Derivation := do
  let opening ← p.openAssumption?
  let conclusion ← p.last?
  guard (conclusion.depth = p.depth)
  return {
    formula := parenthesized opening.formula ++ " -> " ++ parenthesized conclusion.formula
    dependencies :=
      if conclusion.id = opening.id then [opening.id] else [opening.id, conclusion.id]
    placement := .closes
    cases := none }

def excludedMiddle (input : Option String) : Option Derivation := do
  let s ← readInput? input
  return continued (Operand.ofText s ++ " | ~" ++ Operand.ofText s) []

end Derivation

/-- What a rule of a kind derives in a proof from the steps it cites and from the input. -/
def Proof.derive (p : Proof) (kind : RuleKind) (cited : List Step) (input : Option String) :
    Option Derivation :=
  match kind with
  | .premise => none
  | .assumption => Derivation.assumption input
  | .modusPonens => Derivation.matched Derivation.detach? cited
  | .modusTollens => Derivation.matched Derivation.refute? cited
  | .andIntro => Derivation.conjunction cited
  | .andElimLeft => Derivation.part (·.conjuncts.map Prod.fst) cited
  | .andElimRight => Derivation.part (·.conjuncts.map Prod.snd) cited
  | .orIntroLeft => Derivation.disjunction input (fun s t => (s, t)) cited
  | .orIntroRight => Derivation.disjunction input (fun s t => (t, s)) cited
  | .orElim => Derivation.caseSplit cited
  | .impliesIntro => Derivation.discharge p
  | .doubleNegation => Derivation.part (·.doubleNegated) cited
  | .excludedMiddle => Derivation.excludedMiddle input

end NaturalDeduction
