import NaturalDeduction.Proof.Derivation

set_option autoImplicit false
set_option relaxedAutoImplicit false

namespace NaturalDeduction

inductive Obstacle
  | premisesAreGiven
  | noOpenAssumption
  | noDisjunction
  | tooFewSteps (needed : Nat)
  deriving DecidableEq, Repr

def Obstacle.message : Obstacle → String
  | premisesAreGiven => "Premises are given, not derived"
  | noOpenAssumption => "No open assumption to close"
  | noDisjunction => "Need a disjunction (P∨Q) to apply this rule"
  | tooFewSteps 1 => "Need at least 1 step to apply this rule"
  | tooFewSteps n => "Need at least " ++ toString n ++ " steps to apply this rule"

namespace Proof

def isDisjunction (s : Step) : Bool :=
  ((Derivation.read? s.formula).bind Formula.disjuncts).isSome

/-- The number of steps that are not deeper than the proof. -/
def available (p : Proof) : Nat :=
  p.steps.countP (·.depth ≤ p.depth)

/-- What stands against attempting a rule, if anything does. -/
def obstacle (p : Proof) (rule : Rule) : Option Obstacle :=
  match rule.kind with
  | .assumption | .excludedMiddle => none
  | .premise => some .premisesAreGiven
  | .impliesIntro => if 0 < p.depth then none else some .noOpenAssumption
  | .orElim => if p.steps.any isDisjunction then none else some .noDisjunction
  | _ => if rule.citations ≤ p.available then none else some (.tooFewSteps rule.citations)

def obstacles (p : Proof) : List (Rule × Option Obstacle) :=
  Rule.table.map fun rule => (rule, p.obstacle rule)

end Proof

end NaturalDeduction
