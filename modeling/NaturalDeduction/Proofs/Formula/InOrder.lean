import NaturalDeduction.Proofs.Token.Unspaced

set_option autoImplicit false
set_option relaxedAutoImplicit false

namespace NaturalDeduction

def Lexeme.kind : Lexeme → TokenKind
  | leftParen => .leftParen
  | rightParen => .rightParen
  | connective op => .connective op
  | not => .not
  | name _ => .name
  | const b => .const b

/-- The sign that a token stands for; parentheses and the end of the input stand for none. -/
def Token.sign? (t : Token) : Option Lexeme :=
  match t.kind with
  | .connective op => some (.connective op)
  | .not => some .not
  | .name => some (.name t.text)
  | .const b => some (.const b)
  | .leftParen | .rightParen | .endOfInput => none

namespace Formula

/-- The leaves and connectives of a formula from left to right, a negation before its operand. -/
def inOrder : Formula → List Lexeme
  | var x => [.name x]
  | const b => [.const b]
  | not f => .not :: inOrder f
  | binary op f g => inOrder f ++ .connective op :: inOrder g

/-- A text of a formula has the signs of the formula in order. -/
theorem inOrder_of_spells {l : Level} {ts : List Token} {n : Nat} {f : Formula} (h : Spells l ts n f) :
    ts.filterMap Token.sign? = f.inOrder := by
  induction h with
  | @var t kind => simp [Token.sign?, kind, inOrder]
  | @const t b kind => simp [Token.sign?, kind, inOrder]
  | paren left _ right ih => simpa [Token.sign?, left, right] using ih
  | not kind _ ih => simpa [Token.sign?, kind, inOrder] using ih
  | implies _ kind _ ihf ihg | chain _ _ kind _ ihf ihg =>
    simp [Token.sign?, kind, inOrder, ihf, ihg]
  | tighter _ _ ih => exact ih

private theorem inOrder_ne_nil (f : Formula) : f.inOrder ≠ [] := by
  cases f <;> simp [inOrder]

private theorem isConnective_head_inOrder (f : Formula) :
    ∀ l ∈ f.inOrder.head?, l.kind.isConnective = false := by
  induction f with
  | var x | const b | not f _ =>
    intro l first
    cases first
    rfl
  | binary op f g ihf _ => rwa [inOrder, List.head?_append_of_ne_nil _ f.inOrder_ne_nil]

private theorem isLeaf_last_inOrder (f : Formula) : ∀ l ∈ f.inOrder.getLast?, l.kind.isLeaf = true := by
  induction f with
  | var x | const b =>
    intro l last
    cases last
    rfl
  | not f ih => rwa [inOrder, List.getLast?_cons_of_ne_nil f.inOrder_ne_nil]
  | binary op f g _ ihg =>
    rwa [inOrder, List.getLast?_append_cons, List.getLast?_cons_of_ne_nil g.inOrder_ne_nil]

theorem isChain_inOrder (f : Formula) : f.inOrder.IsChain fun l m => l.kind.Meets m.kind := by
  have after (l : Lexeme) (inner : l.kind.isLeaf = false) (f : Formula) :
      ∀ m ∈ f.inOrder.head?, l.kind.Meets m.kind := by
    intro m first
    rw [TokenKind.Meets, inner, f.isConnective_head_inOrder m first]
  induction f with
  | var x | const b => exact List.isChain_singleton _
  | not f ih => exact List.isChain_cons.2 ⟨after .not rfl f, ih⟩
  | binary op f g ihf ihg =>
    refine List.isChain_append.2 ⟨ihf, List.isChain_cons.2 ⟨after (.connective op) rfl g, ihg⟩, ?_⟩
    intro l last m first
    cases first
    exact f.isLeaf_last_inOrder l last

end Formula

end NaturalDeduction
