import NaturalDeduction.Formula.Printer
import NaturalDeduction.Formula.Valuation

/-!
Truth tables. The columns are a formula's variables in increasing order, the rows run from all true to all
false with the first column most significant, and a formula with more than `columnLimit` variables has no
table. A row is known by its index, and a name is looked up in it by halving the columns. Equivalence of two
formulas is decided over the variables of both and stops at the first row that tells them apart.
-/

set_option autoImplicit false
set_option relaxedAutoImplicit false

namespace NaturalDeduction

def columnLimit : Nat := 20

structure TooManyVariables where
  count : Nat
  deriving DecidableEq, Repr

def TooManyVariables.message (e : TooManyVariables) : String :=
  "Formula has " ++ toString e.count ++ " variables, truth tables are limited to " ++
    toString columnLimit

inductive Classification
  | tautology | contradiction | contingent
  deriving DecidableEq, Repr

def Classification.name : Classification → String
  | tautology => "tautology"
  | contradiction => "contradiction"
  | contingent => "contingent"

structure TruthRow where
  values : List Bool
  result : Bool
  deriving DecidableEq, Repr

structure TruthTable where
  columns : List String
  rows : List TruthRow
  deriving DecidableEq, Repr

def rowCount (columns : Nat) : Except TooManyVariables Nat :=
  if columns ≤ columnLimit then .ok (1 <<< columns) else .error ⟨columns⟩

/-- The truth values of the row at an index: column `j` of `k` is true where bit `k - 1 - j` of the index is
zero. -/
def rowValues (index k : Nat) : List Bool :=
  (List.range k).map fun j => !index.testBit (k - 1 - j)

/-- The place of a name among increasing columns, from `low` on and below `high`, by halving. -/
def placeIn? (columns : List String) (x : String) (low high : Nat) : Option Nat :=
  if low < high then
    let middle := low + (high - low) / 2
    match columns[middle]? with
    | none => none
    | some y =>
      if y = x then some middle
      else if y < x then placeIn? columns x (middle + 1) high
      else placeIn? columns x low middle
  else none
termination_by high - low

def Valuation.ofRow (columns : List String) (values : List Bool) : Valuation :=
  fun x => (placeIn? columns x 0 columns.length).bind (values[·]?)

namespace TruthTable

def rowAt (f : Formula) (columns : List String) (index : Nat) : TruthRow :=
  let values := rowValues index columns.length
  ⟨values, f.eval (.ofRow columns values)⟩

/-- The truth table of a formula, if it has not too many variables. -/
def ofFormula (f : Formula) : Except TooManyVariables TruthTable :=
  (rowCount f.vars.length).map fun count => ⟨f.vars, (List.range count).map (rowAt f f.vars)⟩

def isTautology (t : TruthTable) : Bool :=
  t.rows.all (·.result)

def isContradiction (t : TruthTable) : Bool :=
  t.rows.all (!·.result)

def isSatisfiable (t : TruthTable) : Bool :=
  t.rows.any (·.result)

def classify (t : TruthTable) : Classification :=
  if t.isTautology then .tautology
  else if t.isContradiction then .contradiction
  else .contingent

/-- The rows in which the formula is true, as bindings of the variables. -/
def models (t : TruthTable) : List (List (String × Bool)) :=
  (t.rows.filter (·.result)).map fun row => t.columns.zip row.values

def letter (b : Bool) : String :=
  if b then "T" else "F"

def padRight (width : Nat) (s : String) : String :=
  s ++ String.ofList (List.replicate (width - s.length) ' ')

/-- The table as lines of text under a header of the variables, each column as wide as its name. -/
def listing (t : TruthTable) : String :=
  let header := String.join (t.columns.map (· ++ " | ")) ++ "=\n"
  let line (row : TruthRow) : String :=
    String.join ((t.columns.zip row.values).map fun (x, b) =>
      padRight x.length (letter b) ++ " | ") ++ letter row.result ++ "\n"
  header ++ String.join (t.rows.map line)

end TruthTable

namespace Formula

/-- Whether two formulas have the same truth value in every row over the variables of both, if these are not
too many. -/
def equivalent (f g : Formula) : Except TooManyVariables Bool :=
  let columns := distinctNames (f.names ++ g.names)
  (rowCount columns.length).map fun count =>
    (List.range count).all fun index =>
      let v := Valuation.ofRow columns (rowValues index columns.length)
      f.eval v == g.eval v

end Formula

end NaturalDeduction
