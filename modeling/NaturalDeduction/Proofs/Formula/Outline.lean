import NaturalDeduction.Formula.Outline

set_option autoImplicit false
set_option relaxedAutoImplicit false

namespace NaturalDeduction

def OutlineNode.below (n : Nat) (node : OutlineNode) : OutlineNode :=
  { node with level := node.level + n }

namespace OutlineNode

variable (n m : Nat) (node : OutlineNode)

@[simp] theorem level_below : (node.below n).level = node.level + n := rfl

@[simp] theorem label_below : (node.below n).label = node.label := rfl

@[simp] theorem binding_below : (node.below n).binding = node.binding := rfl

@[simp] theorem text_below : (node.below n).text = node.text := rfl

@[simp] theorem below_zero : node.below 0 = node := rfl

private theorem below_below : (node.below m).below n = node.below (n + m) := by
  simp [below, Nat.add_assoc, Nat.add_comm m]

end OutlineNode

namespace Formula

def root (f : Formula) : OutlineNode :=
  OutlinePlace.node ⟨0, f⟩

/-- The root and then the listing of each operand from left to right, one level further below. -/
def preorder : Formula → List OutlineNode
  | var x => [root (var x)]
  | const b => [root (const b)]
  | not f => root (not f) :: (preorder f).map (·.below 1)
  | binary op f g => root (binary op f g) :: ((preorder f).map (·.below 1) ++ (preorder g).map (·.below 1))

/-- The formula and then the subformulas of each operand from left to right. -/
def subformulas : Formula → List Formula
  | var x => [var x]
  | const b => [const b]
  | not f => not f :: subformulas f
  | binary op f g => binary op f g :: (subformulas f ++ subformulas g)

private theorem preorder_eq_children (f : Formula) :
    f.preorder = f.root :: f.children.flatMap fun g => g.preorder.map (·.below 1) := by
  cases f <;> simp [preorder, children]

/-- The listing of the subformula at a place, with its levels below the root of the whole. -/
def listingAt (place : OutlinePlace) : List OutlineNode :=
  place.formula.preorder.map (·.below place.level)

private theorem listingAt_eq (place : OutlinePlace) :
    listingAt place = place.node :: place.operands.flatMap listingAt := by
  obtain ⟨n, f⟩ := place
  have root : f.root.below n = OutlinePlace.node ⟨n, f⟩ := by
    simp [Formula.root, OutlinePlace.node, OutlineNode.below]
  rw [listingAt, preorder_eq_children, List.map_cons, root, OutlinePlace.operands, List.flatMap_map,
    List.map_flatMap]
  simp only [listingAt, List.map_map, Function.comp_def, OutlineNode.below_below]

/-- The walk lists the pending places one after the other. -/
private theorem walk_eq (pending : List OutlinePlace) : walk pending = pending.flatMap listingAt := by
  fun_induction walk pending with
  | case1 => rfl
  | case2 place pending ih =>
    -- the operands go before what is pending, which is where the listing of the place has them
    rw [ih, List.flatMap_append, List.flatMap_cons, listingAt_eq place, List.cons_append]

private theorem outline_eq (f : Formula) : f.outline = f.preorder := by
  rw [outline, walk_eq, List.flatMap_singleton, listingAt]
  simp

private theorem length_preorder (f : Formula) : f.preorder.length = f.size := by
  induction f with
  | var x | const b => rfl
  | not f ih => simp [preorder, size, ih]
  | binary op f g ihf ihg => simp [preorder, size, ihf, ihg]

private theorem level_le_height {f : Formula} : ∀ node ∈ f.preorder, node.level ≤ f.height := by
  induction f with
  | var x | const b => simp [preorder, root, OutlinePlace.node]
  | not f ih => simpa [preorder, root, OutlinePlace.node, height] using ih
  | binary op f g ihf ihg =>
    intro node member
    rw [preorder, List.mem_cons, List.mem_append, List.mem_map, List.mem_map] at member
    rw [height]
    rcases member with rfl | ⟨below, listed, rfl⟩ | ⟨below, listed, rfl⟩
    · exact Nat.zero_le _
    · exact Nat.succ_le_succ (Nat.le_trans (ihf below listed) (Nat.le_max_left _ _))
    · exact Nat.succ_le_succ (Nat.le_trans (ihg below listed) (Nat.le_max_right _ _))

private theorem height_mem_levels (f : Formula) : f.height ∈ f.preorder.map (·.level) := by
  induction f with
  | var x | const b => simp [preorder, root, OutlinePlace.node, height]
  | not f ih => simpa [preorder, root, OutlinePlace.node, height] using ih
  | binary op f g ihf ihg =>
    simp only [preorder, List.map_cons, List.map_append, List.map_map, Function.comp_def,
      OutlineNode.level_below, List.mem_cons, List.mem_append, List.mem_map, height] at ihf ihg ⊢
    rcases Nat.le_total g.height f.height with lower | higher
    · obtain ⟨node, listed, deepest⟩ := ihf
      exact Or.inr (Or.inl ⟨node, listed, by rw [deepest, Nat.max_eq_left lower]⟩)
    · obtain ⟨node, listed, deepest⟩ := ihg
      exact Or.inr (Or.inr ⟨node, listed, by rw [deepest, Nat.max_eq_right higher]⟩)

private theorem max_level_preorder (f : Formula) : (f.preorder.map (·.level)).max? = some f.height := by
  refine List.max?_eq_some_iff.2 ⟨f.height_mem_levels, fun n member => ?_⟩
  obtain ⟨node, listed, rfl⟩ := List.mem_map.1 member
  exact level_le_height node listed

private theorem map_preorder {α : Type} (read : OutlineNode → α) (level : ∀ n node, read (node.below n) = read node)
    (f : Formula) : f.preorder.map read = f.subformulas.map (fun g => read g.root) := by
  induction f with
  | var x | const b => rfl
  | not f ih => simp [preorder, subformulas, Function.comp_def, level, ih]
  | binary op f g ihf ihg => simp [preorder, subformulas, Function.comp_def, level, ihf, ihg]

def head : Formula → Lexeme
  | var x => .name x
  | const b => .const b
  | not _ => .not
  | binary op _ _ => .connective op

private theorem head_eq_of_label_eq {f g : Formula} (same : f.label = g.label) : f.head = g.head := by
  have chars : f.label.toList = g.label.toList := congrArg String.toList same
  -- only the label of a variable begins with a `V`, and the others are different words
  rcases f with x | (_ | _) | f | ⟨_ | _ | _ | _, f, f'⟩ <;>
    rcases g with y | (_ | _) | g | ⟨_ | _ | _ | _, g, g'⟩ <;>
      simp [label, head, String.toList_inj] at chars ⊢
  exact chars

/-- The labels of two formulas that begin the same list are the labels of one formula. -/
private theorem eq_of_labels_append {f g : Formula} {ls ms : List String}
    (same : f.subformulas.map label ++ ls = g.subformulas.map label ++ ms) : f = g ∧ ls = ms := by
  have heads {f g : Formula} {ls ms : List String} (same : f.label :: ls = g.label :: ms) :
      f.head = g.head ∧ ls = ms :=
    ⟨head_eq_of_label_eq (List.cons.inj same).1, (List.cons.inj same).2⟩
  -- the first label fixes the outermost sign, and with it the number of operands that the rest begins with
  induction f generalizing g ls ms with
  | var x =>
    cases g with
    | var y => simpa [head] using heads same
    | const b | not g | binary op g g' => simpa [head] using (heads same).1
  | const b =>
    cases g with
    | const b' => simpa [head] using heads same
    | var y | not g | binary op g g' => simpa [head] using (heads same).1
  | not f ih =>
    cases g with
    | not g =>
      obtain ⟨operand, rest⟩ := ih (heads same).2
      exact ⟨congrArg not operand, rest⟩
    | var y | const b | binary op g g' => simpa [head] using (heads same).1
  | binary op f f' ihf ihf' =>
    cases g with
    | binary op' g g' =>
      simp only [subformulas, List.map_cons, List.map_append, List.cons_append, List.append_assoc] at same
      obtain ⟨first, later⟩ := heads same
      obtain ⟨left, later⟩ := ihf later
      obtain ⟨right, rest⟩ := ihf' later
      exact ⟨by rw [left, right, Lexeme.connective.inj first], rest⟩
    | var y | const b | not g => simpa [head] using (heads same).1

private theorem labels_injective : Function.Injective fun f : Formula => f.subformulas.map label := by
  intro f g same
  exact (eq_of_labels_append (congrArg (· ++ []) same)).1

/-- The outline is the listing in preorder: it has a line for each node, the lowest line is at the end of a longest
branch, each line says what stands at its place, and the levels with the labels determine the formula. -/
theorem outline_lists_preorder (f : Formula) :
    f.outline = f.preorder ∧
      f.outline.length = f.size ∧
      (f.outline.map (·.level)).max? = some (f.depth - 1) ∧
      (f.outline.map fun node => (node.label, node.binding, node.text)) =
        (f.subformulas.map fun g => (g.label, g.level, g.text)) ∧
      ∀ g : Formula, (f.outline.map fun node => (node.level, node.label)) =
        (g.outline.map fun node => (node.level, node.label)) ↔ f = g := by
  simp only [outline_eq]
  refine ⟨trivial, f.length_preorder, f.max_level_preorder, map_preorder _ (fun _ _ => rfl) f, fun g => ?_⟩
  constructor
  · intro same
    have labels := congrArg (List.map Prod.snd) same
    simp only [List.map_map, Function.comp_def] at labels
    rw [map_preorder _ (fun _ _ => rfl), map_preorder _ (fun _ _ => rfl)] at labels
    exact labels_injective labels
  · rintro rfl
    rfl

end Formula

end NaturalDeduction
