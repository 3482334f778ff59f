import NaturalDeduction.Proofs.Proof.Extension

/-!
Subproofs as a stack. A proof keeps no stack of its open assumptions and searches its steps from the end for
the latest one that opens a subproof at the right depth. Replaying the steps against a stack shows that this
search finds the top, whatever subproofs have been opened and closed before.
-/

set_option autoImplicit false
set_option relaxedAutoImplicit false

namespace NaturalDeduction

/-- The stack of open assumptions after one more step, or `none` where there is nothing to take off. -/
def Step.replay? (s : Step) (stack : List Step) : Option (List Step) :=
  match s.rule with
  | .assumption => some (s :: stack)
  | .impliesIntro => stack.tail?
  | _ => some stack

/-- The stack of open assumptions after some steps. -/
def replay? (steps : List Step) : Option (List Step) :=
  steps.foldlM (fun stack s => s.replay? stack) []

private theorem replay?_concat (steps : List Step) (s : Step) :
    replay? (steps ++ [s]) = (replay? steps).bind s.replay? := by
  unfold replay?
  rw [List.foldlM_append]
  simp

/-- A step writes down the implication from an assumption to the last of the steps before it. -/
def Discharges (before : List Step) (opening s : Step) : Prop :=
  ∃ last, before.getLast? = some last ∧
    s.formula = "(" ++ Text.trim opening.formula ++ ") -> (" ++ Text.trim last.formula ++ ")" ∧
    s.dependencies = if last = opening then [opening.id] else [opening.id, last.id]

/-- Steps that leave a stack of open assumptions, with the depths and the marks that they have in a proof. -/
inductive Stacked : List Step → List Step → Prop
  | nil : Stacked [] []
  | opens {steps stack : List Step} {s : Step} (before : Stacked steps stack)
      (rule : s.rule = .assumption) (mark : s.opensSubproof = true)
      (depth : s.depth = stack.length + 1) : Stacked (steps ++ [s]) (s :: stack)
  | closes {steps stack : List Step} {s top : Step} (before : Stacked steps (top :: stack))
      (rule : s.rule = .impliesIntro) (mark : s.opensSubproof = false)
      (depth : s.depth = stack.length) (implication : Discharges steps top s) :
      Stacked (steps ++ [s]) stack
  | continues {steps stack : List Step} {s : Step} (before : Stacked steps stack)
      (rule : s.rule ≠ .assumption ∧ s.rule ≠ .impliesIntro) (mark : s.opensSubproof = false)
      (depth : s.depth = stack.length) : Stacked (steps ++ [s]) stack

namespace Stacked

variable {steps stack : List Step} {s : Step}

theorem replay?_of_continues (rule : s.rule ≠ .assumption ∧ s.rule ≠ .impliesIntro)
    (stack : List Step) : s.replay? stack = some stack := by
  unfold Step.replay?
  split
  · rename_i assumed
    exact absurd assumed rule.1
  · rename_i closed
    exact absurd closed rule.2
  · rfl

theorem replay?_eq (h : Stacked steps stack) : replay? steps = some stack := by
  induction h with
  | nil => rfl
  | opens _ rule _ _ ih =>
    rw [replay?_concat, ih]
    simp [Step.replay?, rule]
  | closes _ rule _ _ _ ih =>
    rw [replay?_concat, ih]
    simp [Step.replay?, rule]
  | continues _ rule _ _ ih =>
    rw [replay?_concat, ih]
    exact replay?_of_continues rule _

private theorem find?_eq (h : Stacked steps stack) {d : Nat} (positive : 0 < d) (within : d ≤ stack.length) :
    (steps.reverse.find? fun s => s.opensSubproof && s.depth == d) = stack[stack.length - d]? := by
  induction h with
  | nil =>
    have empty : d ≤ 0 := within
    omega
  | @opens steps stack s _ _ mark depth ih =>
    rw [List.reverse_append, List.reverse_singleton, List.singleton_append, List.find?_cons]
    by_cases here : d = stack.length + 1
    · have found : (s.opensSubproof && s.depth == d) = true := by simp [mark, depth, here]
      rw [found, List.length_cons, here, Nat.sub_self]
      rfl
    · have passed : (s.opensSubproof && s.depth == d) = false := by
        simp [depth, Ne.symm here]
      have below : d ≤ stack.length := by
        rw [List.length_cons] at within
        omega
      have shift : (s :: stack).length - d = stack.length - d + 1 := by
        rw [List.length_cons]
        omega
      rw [passed, shift, List.getElem?_cons_succ]
      exact ih below
  | @closes steps stack s top _ _ mark _ _ ih =>
    -- The entry that is taken off is deeper than `d`, so the search goes on to the same one below it.
    have shift : (top :: stack).length - d = stack.length - d + 1 := by
      rw [List.length_cons]
      omega
    rw [shift, List.getElem?_cons_succ] at ih
    rw [List.reverse_append, List.reverse_singleton, List.singleton_append, List.find?_cons, mark]
    exact ih (Nat.le_succ_of_le within)
  | @continues steps stack s _ _ mark _ ih =>
    rw [List.reverse_append, List.reverse_singleton, List.singleton_append, List.find?_cons, mark]
    exact ih within

/-- What the last step does to the stack of the steps before it. -/
theorem of_concat (h : Stacked (steps ++ [s]) stack) :
    ∃ under, Stacked steps under ∧ s.replay? under = some stack ∧ s.depth = stack.length ∧
      (s.rule = .impliesIntro → ∃ opening, under = opening :: stack ∧ Discharges steps opening s) := by
  generalize eq : steps ++ [s] = all at h
  cases h with
  | nil => simp at eq
  | opens before rule mark depth =>
    obtain ⟨rfl, same⟩ := List.append_inj' eq rfl
    cases same
    exact ⟨_, before, by simp [Step.replay?, rule], depth, by simp [rule]⟩
  | @closes _ _ _ top before rule mark depth implication =>
    obtain ⟨rfl, same⟩ := List.append_inj' eq rfl
    cases same
    exact ⟨_, before, by simp [Step.replay?, rule], depth, fun _ => ⟨top, rfl, implication⟩⟩
  | continues before rule mark depth =>
    obtain ⟨rfl, same⟩ := List.append_inj' eq rfl
    cases same
    exact ⟨_, before, replay?_of_continues rule _, depth, fun closing => absurd closing rule.2⟩

theorem of_append {later : List Step} (h : Stacked (steps ++ later) stack) :
    ∃ under, Stacked steps under := by
  induction later generalizing steps with
  | nil =>
    rw [List.append_nil] at h
    exact ⟨stack, h⟩
  | cons s later ih =>
    have shifted : steps ++ s :: later = (steps ++ [s]) ++ later := by simp
    rw [shifted] at h
    obtain ⟨_, next⟩ := ih h
    obtain ⟨under, first, _⟩ := next.of_concat
    exact ⟨under, first⟩

private theorem of_premises (h : ∀ s ∈ steps, Proof.IsPremise s) : Stacked steps [] := by
  have extend : ∀ before, Stacked before [] → Stacked (before ++ steps) [] := by
    induction steps with
    | nil =>
      intro before stacked
      rwa [List.append_nil]
    | cons s steps ih =>
      intro before stacked
      have premise := h s List.mem_cons_self
      have next : Stacked (before ++ [s]) [] :=
        stacked.continues (by simp [premise.rule_eq]) premise.opens_eq premise.depth_eq
      have rest := ih (fun t member => h t (List.mem_cons_of_mem _ member)) _ next
      rwa [List.append_assoc] at rest
  exact extend [] .nil

end Stacked

namespace Proof

variable {goal : String} {premises : List String} {p q : Proof} {s : Step} {stack : List Step}

/-- The search finds the top of the stack. -/
theorem openAssumption?_eq (stacked : Stacked p.steps stack) (height : stack.length = p.depth) :
    p.openAssumption? = stack.head? := by
  unfold openAssumption?
  split
  · rename_i flat
    rw [flat] at height
    rw [List.eq_nil_of_length_eq_zero height]
    rfl
  · rename_i deep
    rw [stacked.find?_eq (Nat.pos_of_ne_zero deep) (Nat.le_of_eq height.symm), height, Nat.sub_self]
    exact List.head?_eq_getElem?.symm

theorem mem_of_openAssumption? (h : p.openAssumption? = some s) : s ∈ p.steps := by
  unfold openAssumption? at h
  split at h
  · cases h
  · exact List.mem_reverse.1 (List.mem_of_find?_eq_some h)

theorem parenthesized_implies (a b : String) :
    Derivation.parenthesized a ++ " -> " ++ Derivation.parenthesized b =
      "(" ++ Text.trim a ++ ") -> (" ++ Text.trim b ++ ")" := by
  have joint : ") -> (" = ")" ++ " -> " ++ "(" := rfl
  simp only [Derivation.parenthesized, joint, String.append_assoc]

private theorem Extends.stacked (numbered : p.Numbered) (stacked : Stacked p.steps stack)
    (height : stack.length = p.depth) (h : p.Extends s q) :
    ∃ next, Stacked q.steps next ∧ next.length = q.depth := by
  obtain ⟨kind, cited, input, d, derived, records, steps, depth⟩ := h.recorded
  have top := openAssumption?_eq stacked height
  obtain ⟨_, formula_eq, rule_eq, dependencies_eq, depth_eq, opens_eq⟩ := records
  rw [steps, depth, depth_eq]
  cases kind with
  | premise => cases derived
  | assumption =>
    have level : s.depth = stack.length + 1 := by rw [depth_eq, height]; rfl
    exact ⟨s :: stack, stacked.opens rule_eq opens_eq level, depth_eq ▸ level.symm⟩
  | impliesIntro =>
    obtain ⟨opening, last, opened, final, _, _, formula, dependencies⟩ :=
      Derivation.discharge_eq_some derived
    obtain ⟨rest, rfl⟩ : ∃ rest, stack = opening :: rest :=
      List.head?_eq_some_iff.1 (top.symm.trans opened)
    have level : s.depth = rest.length := by
      rw [depth_eq]
      change p.depth - 1 = rest.length
      rw [← height, List.length_cons, Nat.add_sub_cancel]
    have same : last.id = opening.id ↔ last = opening :=
      ⟨numbered.eq_of_id (List.mem_of_getLast? final) (mem_of_openAssumption? opened),
        congrArg Step.id⟩
    have implication : Discharges p.steps opening s := by
      refine ⟨last, final, ?_, ?_⟩
      · rw [formula_eq, formula, parenthesized_implies]
      · rw [dependencies_eq, dependencies]
        simp only [same]
    exact ⟨rest, stacked.closes rule_eq opens_eq level implication, depth_eq ▸ level.symm⟩
  | modusPonens | modusTollens | andIntro | andElimLeft | andElimRight | orIntroLeft | orIntroRight
  | orElim | doubleNegation | excludedMiddle =>
    have level : s.depth = stack.length := by rw [depth_eq, height]; rfl
    exact ⟨stack, stacked.continues (by simp [rule_eq]) opens_eq level, depth_eq ▸ level.symm⟩

theorem Derivable.stacked (h : Derivable goal premises p) :
    ∃ stack, Stacked p.steps stack ∧ stack.length = p.depth := by
  induction h with
  | start begun =>
    have started := started_of_start begun
    exact ⟨[], .of_premises fun s member => (started.steps s member).1, started.depth_eq.symm⟩
  | extend before step ih =>
    obtain ⟨stack, stacked, height⟩ := ih
    exact step.stacked before.numbered stacked height

/-- The subproofs of a proof are those of a stack. -/
structure FollowsStack (p : Proof) (stack : List Step) : Prop where
  replayed : replay? p.steps = some stack
  height : stack.length = p.depth
  top : p.openAssumption? = stack.head?
  steps : ∀ before s after, p.steps = before ++ s :: after →
    ∃ under next, replay? before = some under ∧ s.replay? under = some next ∧
      s.depth = next.length ∧
      (s.rule = .impliesIntro → ∃ opening rest last, under = opening :: rest ∧
        before.getLast? = some last ∧
        s.formula = "(" ++ Text.trim opening.formula ++ ") -> (" ++ Text.trim last.formula ++ ")" ∧
        s.dependencies = if last = opening then [opening.id] else [opening.id, last.id])

/-- Along every run, replaying the steps against a stack never takes from an empty stack; the depth is the
height of the stack, the search for the open assumption finds its top, and a step that closes a subproof is the
implication from the assumption that is taken off to the step just before. -/
theorem followsStack_of_derivable (h : Derivable goal premises p) :
    ∃ stack, p.FollowsStack stack := by
  obtain ⟨stack, stacked, height⟩ := h.stacked
  refine ⟨stack, stacked.replay?_eq, height, openAssumption?_eq stacked height, ?_⟩
  intro before s after split
  have front : p.steps = (before ++ [s]) ++ after := by rw [split]; simp
  rw [front] at stacked
  obtain ⟨next, stacked⟩ := stacked.of_append
  obtain ⟨under, below, replayed, depth, closing⟩ := stacked.of_concat
  refine ⟨under, next, below.replay?_eq, replayed, depth, fun rule => ?_⟩
  obtain ⟨opening, eq, last, final, formula, dependencies⟩ := closing rule
  exact ⟨opening, next, last, eq, final, formula, dependencies⟩

theorem followsStack_of_assumed_and_discharged :
    ∃ p, Derivable "(p) -> (p)" [] p ∧
      p.steps.map (fun s => (s.formula, s.depth)) = [("p", 1), ("(p) -> (p)", 0)] ∧
      ∃ stack, p.FollowsStack stack := by
  have within : 3 ≤ counterLimit := by decide
  let second : StepId := ⟨2, by decide⟩
  let assumed : Step := ⟨.first, .first, "p", .assumption, [], 1, true, false, none⟩
  let discharged : Step :=
    ⟨second, ⟨[2], by decide, by decide⟩, "(p) -> (p)", .impliesIntro, [.first], 0, false, true, none⟩
  have opened : Derivable "(p) -> (p)" [] ⟨"(p) -> (p)", [], [assumed], 1, second, false⟩ :=
    .extend (.start rfl)
      (@Extends.apply _ assumed _ ⟨.assumption, .assumption, 0⟩ [] (some "p") (by decide) (by cbv) rfl)
  have closed : Derivable "(p) -> (p)" []
      ⟨"(p) -> (p)", [], [assumed, discharged], 0, ⟨3, within⟩, false⟩ :=
    .extend opened
      (@Extends.apply _ discharged _ ⟨.impliesIntro, .introduction, 0⟩ [] none (by decide) (by cbv) rfl)
  exact ⟨_, closed, rfl, followsStack_of_derivable closed⟩

end Proof

end NaturalDeduction
