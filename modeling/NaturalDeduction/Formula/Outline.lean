import NaturalDeduction.Formula.Printer

set_option autoImplicit false
set_option relaxedAutoImplicit false

namespace NaturalDeduction

/-- A line of an outline: the level below the root, and the label, the binding and the text of the subformula that
stands there. -/
structure OutlineNode where
  level : Nat
  label : String
  binding : Level
  text : String
  deriving DecidableEq, Repr

structure OutlinePlace where
  level : Nat
  formula : Formula
  deriving DecidableEq, Repr

namespace Formula

def children : Formula → List Formula
  | var _ => []
  | const _ => []
  | not f => [f]
  | binary _ f g => [f, g]

def label : Formula → String
  | var x => "VAR(" ++ x ++ ")"
  | const true => "TRUE"
  | const false => "FALSE"
  | not _ => "NOT"
  | binary .and _ _ => "AND"
  | binary .or _ _ => "OR"
  | binary .implies _ _ => "IMPLIES"
  | binary .iff _ _ => "IFF"

def totalSize : List Formula → Nat
  | [] => 0
  | f :: fs => f.size + totalSize fs

private theorem totalSize_append (fs gs : List Formula) :
    totalSize (fs ++ gs) = totalSize fs + totalSize gs := by
  induction fs with
  | nil => simp [totalSize]
  | cons f fs ih => simp [totalSize, ih, Nat.add_assoc]

private theorem totalSize_children (f : Formula) : totalSize f.children + 1 = f.size := by
  cases f with
  | var _ => rfl
  | const _ => rfl
  | not f => simp [children, size, totalSize]
  | binary _ f g => simp [children, size, totalSize]

end Formula

namespace OutlinePlace

def node (place : OutlinePlace) : OutlineNode :=
  ⟨place.level, place.formula.label, place.formula.level, place.formula.text⟩

def operands (place : OutlinePlace) : List OutlinePlace :=
  place.formula.children.map (⟨place.level + 1, ·⟩)

end OutlinePlace

namespace Formula

/-- The outline below each of the pending places, one after the other. -/
def walk : List OutlinePlace → List OutlineNode
  | [] => []
  | place :: pending => place.node :: walk (place.operands ++ pending)
termination_by pending => totalSize (pending.map (·.formula))
decreasing_by
  have parts := totalSize_children place.formula
  simp only [OutlinePlace.operands, List.map_append, List.map_map, Function.comp_def, List.map_id',
    totalSize_append, List.map_cons, totalSize]
  omega

def outline (f : Formula) : List OutlineNode :=
  walk [⟨0, f⟩]

end Formula

namespace OutlineNode

/-- A line of an outline as text, indented by two blanks for each level. -/
def listing (node : OutlineNode) : String :=
  String.join (List.replicate node.level "  ") ++ node.label ++ " (prec=" ++
    toString node.binding.rank ++ ") " ++ node.text

end OutlineNode

def Formula.outlineListing (f : Formula) : String :=
  String.join (f.outline.map fun node => node.listing ++ "\n")

end NaturalDeduction
