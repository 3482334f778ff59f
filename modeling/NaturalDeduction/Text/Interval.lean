set_option autoImplicit false
set_option relaxedAutoImplicit false

namespace NaturalDeduction.Text

structure Interval where
  first : Nat
  last : Nat

def Interval.contains (i : Interval) (n : Nat) : Bool :=
  i.first ≤ n && n ≤ i.last

end NaturalDeduction.Text
