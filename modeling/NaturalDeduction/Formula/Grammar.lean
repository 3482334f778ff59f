import NaturalDeduction.Formula.Level
import NaturalDeduction.Token.Basic

/-!
The grammar of formulas as a relation, apart from any parser: which lists of tokens spell which formula at
which level. `<->`, `|` and `^` group to the left and `->` groups to the right because of the levels that
`Level.left` and `Level.right` ask of their operands.
-/

set_option autoImplicit false
set_option relaxedAutoImplicit false

namespace NaturalDeduction

/-- `Spells l ts n f` says that the tokens `ts` spell the formula `f` at level `l`, and that `n` is the largest
number of parentheses, negations and right sides of `->` around one of them. -/
inductive Spells : Level → List Token → Nat → Formula → Prop
  | var {t : Token} (kind : t.kind = .name) :
      Spells .atom [t] 0 (.var t.text)
  | const {t : Token} {b : Bool} (kind : t.kind = .const b) :
      Spells .atom [t] 0 (.const b)
  | paren {opening closing : Token} {ts : List Token} {n : Nat} {f : Formula}
      (left : opening.kind = .leftParen) (inside : Spells .loosest ts n f)
      (right : closing.kind = .rightParen) :
      Spells .atom (opening :: ts ++ [closing]) (n + 1) f
  | not {t : Token} {ts : List Token} {n : Nat} {f : Formula}
      (kind : t.kind = .not) (operand : Spells .negation ts n f) :
      Spells .negation (t :: ts) (n + 1) (.not f)
  | implies {t : Token} {ts us : List Token} {m n : Nat} {f g : Formula}
      (left : Spells (.left .implies) ts m f) (kind : t.kind = .connective .implies)
      (right : Spells (.right .implies) us n g) :
      Spells (.binary .implies) (ts ++ t :: us) (max m (n + 1)) (.binary .implies f g)
  | chain {op : Connective} {t : Token} {ts us : List Token} {m n : Nat} {f g : Formula}
      (grouping : op ≠ .implies) (left : Spells (.left op) ts m f)
      (kind : t.kind = .connective op) (right : Spells (.right op) us n g) :
      Spells (.binary op) (ts ++ t :: us) (max m n) (.binary op f g)
  | tighter {l : Level} {ts : List Token} {n : Nat} {f : Formula}
      (below : l ≠ .atom) (whole : Spells l.tighter ts n f) :
      Spells l ts n f

end NaturalDeduction
