set_option autoImplicit false
set_option relaxedAutoImplicit false

namespace NaturalDeduction

inductive Connective
  | and | or | implies | iff
  deriving DecidableEq, Repr

inductive Formula
  | var (name : String)
  | const (value : Bool)
  | not (operand : Formula)
  | binary (op : Connective) (left right : Formula)
  deriving DecidableEq, Repr

namespace Formula

def size : Formula → Nat
  | var _ => 1
  | const _ => 1
  | not f => size f + 1
  | binary _ f g => size f + size g + 1

/-- The number of edges on the longest branch. -/
def height : Formula → Nat
  | var _ => 0
  | const _ => 0
  | not f => height f + 1
  | binary _ f g => max (height f) (height g) + 1

/-- The number of nodes on the longest branch. -/
def depth (f : Formula) : Nat :=
  f.height + 1

/-- The names of the variables from left to right, once for each occurrence. -/
def names : Formula → List String
  | var x => [x]
  | const _ => []
  | not f => names f
  | binary _ f g => names f ++ names g

def insertName (x : String) : List String → List String
  | [] => [x]
  | y :: ys => if x < y then x :: y :: ys else if x = y then y :: ys else y :: insertName x ys

def distinctNames (xs : List String) : List String :=
  xs.foldr insertName []

@[simp] theorem mem_insertName {x y : String} {ys : List String} :
    x ∈ insertName y ys ↔ x = y ∨ x ∈ ys := by
  induction ys with
  | nil => simp [insertName]
  | cons z zs ih =>
    unfold insertName
    split
    · simp
    · split
      · rename_i same
        simp [same]
      · simp [ih, or_left_comm]

@[simp] theorem mem_distinctNames {x : String} {xs : List String} :
    x ∈ distinctNames xs ↔ x ∈ xs := by
  induction xs with
  | nil => simp [distinctNames]
  | cons y ys ih =>
    change x ∈ insertName y (distinctNames ys) ↔ x ∈ y :: ys
    rw [mem_insertName, ih, List.mem_cons]

private theorem pairwise_insertName {y : String} {ys : List String}
    (h : ys.Pairwise (· < ·)) : (insertName y ys).Pairwise (· < ·) := by
  induction ys with
  | nil => exact List.pairwise_singleton _ _
  | cons z zs ih =>
    obtain ⟨above, rest⟩ := List.pairwise_cons.1 h
    unfold insertName
    split
    · rename_i less
      refine List.pairwise_cons.2 ⟨fun x member => ?_, h⟩
      rcases List.mem_cons.1 member with rfl | later
      · exact less
      · exact String.lt_trans less (above x later)
    · split
      · exact h
      · rename_i notLess notSame
        refine List.pairwise_cons.2 ⟨fun x member => ?_, ih rest⟩
        rcases mem_insertName.1 member with rfl | later
        · exact String.not_le.1 fun below =>
            notSame (String.le_antisymm below (String.not_lt.1 notLess))
        · exact above x later

theorem pairwise_distinctNames (xs : List String) : (distinctNames xs).Pairwise (· < ·) := by
  induction xs with
  | nil => exact List.Pairwise.nil
  | cons y ys ih => exact pairwise_insertName ih

/-- The variables in increasing order, each once. -/
def vars (f : Formula) : List String :=
  distinctNames f.names

def operands : Formula → Option (Formula × Formula)
  | binary _ f g => some (f, g)
  | _ => none

def negated : Formula → Option Formula
  | not f => some f
  | _ => none

def conjuncts : Formula → Option (Formula × Formula)
  | binary .and f g => some (f, g)
  | _ => none

def disjuncts : Formula → Option (Formula × Formula)
  | binary .or f g => some (f, g)
  | _ => none

def implication : Formula → Option (Formula × Formula)
  | binary .implies f g => some (f, g)
  | _ => none

def doubleNegated : Formula → Option Formula
  | not (not f) => some f
  | _ => none

end Formula

end NaturalDeduction
