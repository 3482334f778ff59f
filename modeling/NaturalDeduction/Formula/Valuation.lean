import NaturalDeduction.Formula.Basic

set_option autoImplicit false
set_option relaxedAutoImplicit false

namespace NaturalDeduction

/-- The truth values that are given to names, where any are. -/
abbrev Valuation := String → Option Bool

namespace Valuation

/-- The valuation of a list of bindings in which the first binding of a name counts. -/
def ofFirst (bindings : List (String × Bool)) : Valuation :=
  fun x => bindings.lookup x

/-- The valuation of a list of bindings in which the last binding of a name counts. -/
def ofLast (bindings : List (String × Bool)) : Valuation :=
  ofFirst bindings.reverse

end Valuation

def Connective.eval : Connective → Bool → Bool → Bool
  | and, a, b => a && b
  | or, a, b => a || b
  | implies, a, b => !a || b
  | iff, a, b => a == b

def Formula.eval (v : Valuation) : Formula → Bool
  | var x => (v x).getD false
  | const b => b
  | not f => !f.eval v
  | binary op f g => op.eval (f.eval v) (g.eval v)

/-- Only the names that occur in a formula matter, and of them only which ones are true. -/
theorem Formula.eval_congr {v w : Valuation} (f : Formula)
    (agree : ∀ x ∈ f.names, (v x).getD false = (w x).getD false) : f.eval v = f.eval w := by
  induction f with
  | var x => exact agree x List.mem_cons_self
  | const b => rfl
  | not f ih => simp only [eval, ih agree]
  | binary op f g ihf ihg =>
    have left := ihf fun x member => agree x (List.mem_append_left _ member)
    have right := ihg fun x member => agree x (List.mem_append_right _ member)
    simp only [eval, left, right]

end NaturalDeduction
