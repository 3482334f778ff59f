set_option autoImplicit false
set_option relaxedAutoImplicit false

namespace NaturalDeduction

def counterLimit : Nat := 4294967295

def offsetLimit : Nat := 18446744073709551615

/-- The counter that cannot go on. -/
inductive Exhausted
  | stepId
  | lineNumber
  | offset
  deriving DecidableEq, Repr

/-- The number of a step. Steps count from one; a recorded proof may also hold zero. -/
structure StepId where
  val : Nat
  le_limit : val ≤ counterLimit
  deriving DecidableEq, Repr

namespace StepId

def first : StepId := ⟨1, by decide⟩

/-- A number as that of a step, unless it is zero or above the limit. -/
def ofNat? (n : Nat) : Option StepId :=
  if h : 0 < n ∧ n ≤ counterLimit then some ⟨n, h.2⟩ else none

def next (i : StepId) : Except Exhausted StepId :=
  if h : i.val + 1 ≤ counterLimit then .ok ⟨i.val + 1, h⟩ else .error .stepId

def text (i : StepId) : String :=
  "#" ++ toString i.val

end StepId

end NaturalDeduction
