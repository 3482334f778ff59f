set_option autoImplicit false
set_option relaxedAutoImplicit false

namespace NaturalDeduction

/-- The kinds of rules; `premise` only marks the steps that a proof starts with. -/
inductive RuleKind
  | premise
  | assumption
  | modusPonens
  | modusTollens
  | andIntro
  | andElimLeft
  | andElimRight
  | orIntroLeft
  | orIntroRight
  | orElim
  | impliesIntro
  | doubleNegation
  | excludedMiddle
  deriving DecidableEq, Repr

namespace RuleKind

def all : List RuleKind :=
  [premise, assumption, modusPonens, modusTollens, andIntro, andElimLeft, andElimRight, orIntroLeft,
   orIntroRight, orElim, impliesIntro, doubleNegation, excludedMiddle]

def key : RuleKind → String
  | premise => "premise"
  | assumption => "assume"
  | modusPonens => "mp"
  | modusTollens => "mt"
  | andIntro => "and_intro"
  | andElimLeft => "and_elim_left"
  | andElimRight => "and_elim_right"
  | orIntroLeft => "or_intro_left"
  | orIntroRight => "or_intro_right"
  | orElim => "or_elim"
  | impliesIntro => "impl_intro"
  | doubleNegation => "double_neg"
  | excludedMiddle => "lem"

def name : RuleKind → String
  | premise => "Premise"
  | assumption => "Assumption"
  | modusPonens => "Modus Ponens"
  | modusTollens => "Modus Tollens"
  | andIntro => "Conjunction Introduction"
  | andElimLeft => "Conjunction Elimination (left)"
  | andElimRight => "Conjunction Elimination (right)"
  | orIntroLeft => "Disjunction Introduction (left)"
  | orIntroRight => "Disjunction Introduction (right)"
  | orElim => "Disjunction Elimination"
  | impliesIntro => "Implication Introduction"
  | doubleNegation => "Double Negation"
  | excludedMiddle => "Law of Excluded Middle"

def ofKey? (key : String) : Option RuleKind :=
  all.find? (·.key == key)

def needsInput : RuleKind → Bool
  | assumption | orIntroLeft | orIntroRight | excludedMiddle => true
  | _ => false

end RuleKind

inductive RuleCategory
  | assumption | basic | introduction | elimination
  deriving DecidableEq, Repr

def RuleCategory.name : RuleCategory → String
  | assumption => "Assumption"
  | basic => "Basic"
  | introduction => "Introduction"
  | elimination => "Elimination"

/-- A rule: what it does, how it is grouped and how many steps it cites. -/
structure Rule where
  kind : RuleKind
  category : RuleCategory
  citations : Nat
  deriving DecidableEq, Repr

namespace Rule

/-- The rules that a proof may apply. -/
def table : List Rule :=
  [⟨.assumption, .assumption, 0⟩,
   ⟨.modusPonens, .basic, 2⟩,
   ⟨.modusTollens, .basic, 2⟩,
   ⟨.excludedMiddle, .basic, 0⟩,
   ⟨.andIntro, .introduction, 2⟩,
   ⟨.orIntroLeft, .introduction, 1⟩,
   ⟨.orIntroRight, .introduction, 1⟩,
   ⟨.impliesIntro, .introduction, 0⟩,
   ⟨.andElimLeft, .elimination, 1⟩,
   ⟨.andElimRight, .elimination, 1⟩,
   ⟨.orElim, .elimination, 1⟩,
   ⟨.doubleNegation, .elimination, 1⟩]

def ofKind? (kind : RuleKind) : Option Rule :=
  table.find? (·.kind == kind)

def ofKey? (key : String) : Option Rule :=
  (RuleKind.ofKey? key).bind ofKind?

end Rule

end NaturalDeduction
