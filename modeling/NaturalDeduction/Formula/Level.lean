import NaturalDeduction.Formula.Basic

set_option autoImplicit false
set_option relaxedAutoImplicit false

namespace NaturalDeduction

inductive Level
  | binary (op : Connective)
  | negation
  | atom
  deriving DecidableEq, Repr

namespace Level

/-- The place of a level in the order, from `1` for the loosest to `6` for the tightest. -/
def rank : Level → Nat
  | binary .iff => 1
  | binary .implies => 2
  | binary .or => 3
  | binary .and => 4
  | negation => 5
  | atom => 6

/-- The next level up; nothing binds more tightly than an atom. -/
def tighter : Level → Level
  | binary .iff => binary .implies
  | binary .implies => binary .or
  | binary .or => binary .and
  | binary .and => negation
  | negation => atom
  | atom => atom

def loosest : Level := binary .iff

/-- The level that the left operand of a connective has to reach: implication groups to the right. -/
def left : Connective → Level
  | .implies => (binary .implies).tighter
  | op => binary op

/-- The level that the right operand of a connective has to reach: the others group to the left. -/
def right : Connective → Level
  | .implies => binary .implies
  | op => (binary op).tighter

def slack (l : Level) : Nat := 7 - l.rank

theorem slack_lt (l : Level) : l.slack < 8 := by
  unfold slack
  omega

theorem slack_tighter (op : Connective) : (binary op).tighter.slack < (binary op).slack := by
  cases op <;> decide

end Level

def Formula.level : Formula → Level
  | .var _ => .atom
  | .const _ => .atom
  | .not _ => .negation
  | .binary op _ _ => .binary op

end NaturalDeduction
