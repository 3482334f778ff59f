import NaturalDeduction.Proof.Basic

set_option autoImplicit false
set_option relaxedAutoImplicit false

namespace NaturalDeduction

structure Exercise where
  name : String
  premises : List String
  goals : List String
  deriving DecidableEq, Repr

namespace Exercise

def all : List Exercise :=
  [⟨"Modus Ponens", ["p", "p -> q"], ["q", "p ^ q"]⟩,
   ⟨"Hypothetical Syllogism", ["p -> q", "q -> r"], ["p -> r"]⟩,
   ⟨"Contraposition", ["p -> q", "~q"], ["~p"]⟩,
   ⟨"Conjunction", ["p ^ q"], ["q ^ p", "p | r"]⟩,
   ⟨"Double Negation", ["~~p", "p -> q"], ["q"]⟩,
   ⟨"Disjunction", ["p | q", "p -> r", "q -> r"], ["r"]⟩,
   ⟨"Tautologies", [], ["p -> p", "p | ~p", "p -> (q -> p)"]⟩]

def sameName (s t : String) : Bool :=
  s.toList.map Char.toLower == t.toList.map Char.toLower

/-- The exercise with a name, up to the case of ASCII letters. -/
def ofName? (name : String) : Option Exercise :=
  all.find? (sameName ·.name name)

def start (e : Exercise) (goal : String) : Except Exhausted Proof :=
  Proof.start goal e.premises

end Exercise

end NaturalDeduction
