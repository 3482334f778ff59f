import NaturalDeduction.Proof.Run
import NaturalDeduction.Proofs.Formula.Reading
import NaturalDeduction.Proofs.Lists

set_option autoImplicit false
set_option relaxedAutoImplicit false

namespace NaturalDeduction

def RuleKind.placement : RuleKind → Placement
  | .assumption => .opens
  | .impliesIntro => .closes
  | _ => .continues

theorem RuleKind.placement_of_ne {kind : RuleKind} (assumed : kind ≠ .assumption)
    (closed : kind ≠ .impliesIntro) : kind.placement = .continues := by
  cases kind with
  | assumption => exact absurd rfl assumed
  | impliesIntro => exact absurd rfl closed
  | _ => rfl

namespace Derivation

variable {cited : List Step} {input : Option String} {d : Derivation}

private theorem assumption_eq_some (h : assumption input = some d) : d.placement = .opens := by
  obtain ⟨s, _, eq⟩ := Option.bind_eq_some_iff.1 h
  cases eq
  rfl

theorem matched_eq_some {conclude : Step → Step → Option String}
    (h : matched conclude cited = some d) :
    ∃ a b t, cited = [a, b] ∧ eitherOrder a b conclude = some t ∧ d = continued t [a, b] := by
  unfold matched at h
  split at h
  · rename_i a b
    obtain ⟨t, concluded, eq⟩ := Option.bind_eq_some_iff.1 h
    exact ⟨a, b, t, rfl, concluded, (Option.some.inj eq).symm⟩
  · cases h

theorem conjunction_eq_some (h : conjunction cited = some d) :
    ∃ a b f g, cited = [a, b] ∧ read? a.formula = some f ∧ read? b.formula = some g ∧
      d = continued (parenthesized a.formula ++ " ^ " ++ parenthesized b.formula) [a, b] := by
  unfold conjunction at h
  split at h
  · rename_i a b
    obtain ⟨f, first, h⟩ := Option.bind_eq_some_iff.1 h
    obtain ⟨g, second, h⟩ := Option.bind_eq_some_iff.1 h
    exact ⟨a, b, f, g, rfl, first, second, (Option.some.inj h).symm⟩
  · cases h

theorem part_eq_some {select : Formula → Option Formula} (h : part select cited = some d) :
    ∃ a f g, cited = [a] ∧ read? a.formula = some f ∧ select f = some g ∧
      d = continued g.text [a] := by
  unfold part at h
  split at h
  · rename_i a
    obtain ⟨f, whole, h⟩ := Option.bind_eq_some_iff.1 h
    obtain ⟨g, selected, h⟩ := Option.bind_eq_some_iff.1 h
    exact ⟨a, f, g, rfl, whole, selected, (Option.some.inj h).symm⟩
  · cases h

private theorem readInput?_eq_some {s : String} (h : readInput? input = some s) :
    input = some s ∧ ∃ f, read? s = some f := by
  obtain ⟨t, entered, h⟩ := Option.bind_eq_some_iff.1 h
  obtain ⟨_, _, h⟩ := Option.bind_eq_some_iff.1 h
  obtain ⟨f, parsed, h⟩ := Option.bind_eq_some_iff.1 h
  cases h
  exact ⟨entered, f, parsed⟩

theorem disjunction_eq_some {arrange : String → String → String × String}
    (h : disjunction input arrange cited = some d) :
    ∃ a f t g, cited = [a] ∧ input = some t ∧ read? a.formula = some f ∧ read? t = some g ∧
      d = continued (parenthesized (arrange a.formula t).1 ++ " | " ++
        parenthesized (arrange a.formula t).2) [a] := by
  unfold disjunction at h
  split at h
  · rename_i a
    obtain ⟨f, whole, h⟩ := Option.bind_eq_some_iff.1 h
    obtain ⟨t, entered, h⟩ := Option.bind_eq_some_iff.1 h
    obtain ⟨given, g, parsed⟩ := readInput?_eq_some entered
    exact ⟨a, f, t, g, rfl, given, whole, parsed, (Option.some.inj h).symm⟩
  · cases h

theorem caseSplit_eq_some (h : caseSplit cited = some d) :
    ∃ a f sides, cited = [a] ∧ read? a.formula = some f ∧ f.disjuncts = some sides ∧
      d = { continued a.formula [a] with cases := some ⟨sides.1.text, sides.2.text⟩ } := by
  unfold caseSplit at h
  split at h
  · rename_i a
    obtain ⟨f, whole, h⟩ := Option.bind_eq_some_iff.1 h
    obtain ⟨sides, apart, h⟩ := Option.bind_eq_some_iff.1 h
    exact ⟨a, f, sides, rfl, whole, apart, (Option.some.inj h).symm⟩
  · cases h

theorem discharge_eq_some {p : Proof} (h : discharge p = some d) :
    ∃ opening last, p.openAssumption? = some opening ∧ p.last? = some last ∧
      last.depth = p.depth ∧ d.placement = .closes ∧
      d.formula = parenthesized opening.formula ++ " -> " ++ parenthesized last.formula ∧
      d.dependencies = if last.id = opening.id then [opening.id] else [opening.id, last.id] := by
  obtain ⟨opening, top, h⟩ := Option.bind_eq_some_iff.1 h
  obtain ⟨last, final, h⟩ := Option.bind_eq_some_iff.1 h
  obtain ⟨_, guarded, h⟩ := Option.bind_eq_some_iff.1 h
  have level : last.depth = p.depth := by
    by_cases level : last.depth = p.depth
    · exact level
    · simp [guard, level] at guarded
  cases h
  exact ⟨opening, last, top, final, level, rfl, rfl, rfl⟩

theorem excludedMiddle_eq_some (h : excludedMiddle input = some d) :
    ∃ s f, read? s = some f ∧
      d = continued (Operand.ofText s ++ " | ~" ++ Operand.ofText s) [] := by
  obtain ⟨s, entered, h⟩ := Option.bind_eq_some_iff.1 h
  obtain ⟨_, f, parsed⟩ := readInput?_eq_some entered
  exact ⟨s, f, parsed, (Option.some.inj h).symm⟩

end Derivation

namespace Proof

variable {p q : Proof} {s : Step}

theorem placement_of_derive {kind : RuleKind} {cited : List Step} {input : Option String}
    {d : Derivation} (h : p.derive kind cited input = some d) : d.placement = kind.placement := by
  cases kind with
  | premise => cases h
  | assumption => exact Derivation.assumption_eq_some h
  | modusPonens | modusTollens =>
    obtain ⟨_, _, _, _, _, rfl⟩ := Derivation.matched_eq_some h
    rfl
  | andIntro =>
    obtain ⟨_, _, _, _, _, _, _, rfl⟩ := Derivation.conjunction_eq_some h
    rfl
  | andElimLeft | andElimRight | doubleNegation =>
    obtain ⟨_, _, _, _, _, _, rfl⟩ := Derivation.part_eq_some h
    rfl
  | orIntroLeft | orIntroRight =>
    simp only [derive] at h
    obtain ⟨_, _, _, _, _, _, _, _, rfl⟩ := Derivation.disjunction_eq_some h
    rfl
  | orElim =>
    obtain ⟨_, _, _, _, _, _, rfl⟩ := Derivation.caseSplit_eq_some h
    rfl
  | impliesIntro =>
    obtain ⟨_, _, _, _, _, placement, _⟩ := Derivation.discharge_eq_some h
    exact placement
  | excludedMiddle =>
    obtain ⟨_, _, _, rfl⟩ := Derivation.excludedMiddle_eq_some h
    rfl

/-- A step that writes down what a rule of a kind derives. -/
structure Records (p : Proof) (kind : RuleKind) (d : Derivation) (s : Step) : Prop where
  id_eq : s.id = p.nextId
  formula_eq : s.formula = d.formula
  rule_eq : s.rule = kind
  dependencies_eq : s.dependencies = d.dependencies
  depth_eq : s.depth = p.depthFor kind.placement
  opens_eq : s.opensSubproof = (kind.placement == .opens)

theorem deriveFrom_eq_some {rule : Rule} {selected : List StepId} {input : Option String}
    {d : Derivation} :
    p.deriveFrom rule selected input = some d ↔ selected.length = rule.citations ∧
      ∃ cited, selected.mapM p.step? = some cited ∧ p.derive rule.kind cited input = some d := by
  constructor
  · intro derived
    obtain ⟨_, guarded, derived⟩ := Option.bind_eq_some_iff.1 derived
    obtain ⟨cited, found, derived⟩ := Option.bind_eq_some_iff.1 derived
    refine ⟨?_, cited, found, derived⟩
    by_contra count
    simp [guard, count] at guarded
  · rintro ⟨count, cited, found, derived⟩
    simp [deriveFrom, guard, count, found, derived]

theorem derive_of_apply {rule : Rule} {selected : List StepId} {input : Option String}
    (h : p.apply rule selected input = .ok (some s)) :
    ∃ cited d, selected.length = rule.citations ∧ selected.mapM p.step? = some cited ∧
      p.derive rule.kind cited input = some d ∧ p.stepOf rule.kind d = .ok s := by
  unfold apply at h
  split at h
  · cases h
  · rename_i d derived
    obtain ⟨count, cited, found, derived⟩ := deriveFrom_eq_some.1 derived
    obtain ⟨t, written, same⟩ := Except.exists_of_map_eq_ok h
    cases same
    exact ⟨cited, d, count, found, derived, written⟩

theorem apply_eq_some {rule : Rule} {selected : List StepId} {input : Option String}
    (h : p.apply rule selected input = .ok (some s)) :
    ∃ cited d, selected.mapM p.step? = some cited ∧ p.derive rule.kind cited input = some d ∧
      p.Records rule.kind d s := by
  obtain ⟨cited, d, _, found, derived, written⟩ := derive_of_apply h
  have placement := placement_of_derive derived
  obtain ⟨line, _, rfl⟩ := Except.exists_of_map_eq_ok written
  exact ⟨cited, d, found, derived, rfl, rfl, rfl, rfl, by rw [placement], by rw [placement]⟩

theorem line_of_apply {rule : Rule} {selected : List StepId} {input : Option String}
    (h : p.apply rule selected input = .ok (some s)) :
    p.lineFor rule.kind.placement = .ok s.line := by
  obtain ⟨_, d, _, _, derived, written⟩ := derive_of_apply h
  obtain ⟨line, given, rfl⟩ := Except.exists_of_map_eq_ok written
  rw [← placement_of_derive derived]
  exact given

theorem mem_steps_of_push (h : p.push s = .ok q) {t : Step} :
    t ∈ q.steps ↔ t ∈ p.steps ∨ t = s := by
  rw [(push_eq_ok h).2.2.1, List.mem_append, List.mem_singleton]

structure Numbered (p : Proof) : Prop where
  increasing : p.steps.Pairwise fun s t => s.id.val < t.id.val
  given : ∀ s ∈ p.steps, s.id.val < p.nextId.val

theorem nextIdAfter_of_push (h : p.push s = .ok q) : p.nextIdAfter s = .ok q.nextId := by
  obtain ⟨id, next, rfl⟩ := Except.exists_of_map_eq_ok h
  exact next

theorem nextId_of_push (next : s.id = p.nextId) (h : p.push s = .ok q) :
    q.nextId.val = p.nextId.val + 1 := by
  have after := nextIdAfter_of_push h
  rw [nextIdAfter, next, if_pos (Nat.le_refl _), StepId.next] at after
  split at after
  · rw [← Except.ok.inj after]
  · cases after

theorem Numbered.push (numbered : p.Numbered) (next : s.id = p.nextId) (h : p.push s = .ok q) :
    q.Numbered := by
  have value := nextId_of_push next h
  constructor
  · rw [(push_eq_ok h).2.2.1, List.pairwise_append]
    refine ⟨numbered.increasing, List.pairwise_singleton _ _, ?_⟩
    intro t member u new
    rw [List.mem_singleton.1 new, next]
    exact numbered.given t member
  · intro t member
    rcases (mem_steps_of_push h).1 member with earlier | rfl
    · have given := numbered.given t earlier
      omega
    · rw [next]
      omega

theorem Numbered.eq_of_id {t : Step} (numbered : p.Numbered) (first : s ∈ p.steps)
    (second : t ∈ p.steps) (same : s.id = t.id) : s = t := by
  obtain ⟨before, after, eq⟩ := List.append_of_mem first
  have increasing := numbered.increasing
  rw [eq] at increasing second
  rw [List.pairwise_append, List.pairwise_cons] at increasing
  obtain ⟨_, ⟨later, _⟩, earlier⟩ := increasing
  rcases List.mem_append.1 second with inBefore | here
  · have less := earlier t inBefore s List.mem_cons_self
    rw [same] at less
    exact absurd less (Nat.lt_irrefl _)
  · rcases List.mem_cons.1 here with rfl | inAfter
    · rfl
    · have less := later t inAfter
      rw [same] at less
      exact absurd less (Nat.lt_irrefl _)

theorem Numbered.step?_eq (numbered : p.Numbered) (member : s ∈ p.steps) :
    p.step? s.id = some s := by
  cases found : p.step? s.id with
  | none =>
    have other := List.find?_eq_none.1 found s member
    simp at other
  | some t =>
    have same : t.id = s.id := by simpa using List.find?_some found
    rw [numbered.eq_of_id (List.mem_of_find?_eq_some found) member same]

structure IsPremise (s : Step) : Prop where
  rule_eq : s.rule = .premise
  depth_eq : s.depth = 0
  opens_eq : s.opensSubproof = false

structure Started (goal : String) (premises : List String) (p : Proof) : Prop where
  goal_eq : p.goal = goal
  premises_eq : p.premises = premises
  depth_eq : p.depth = 0
  numbered : p.Numbered
  steps : ∀ s ∈ p.steps, IsPremise s ∧ s.formula ∈ premises

private theorem Started.pushPremise {goal : String} {premises : List String} {formula : String}
    (started : Started goal premises p) (listed : formula ∈ premises)
    (h : p.pushPremise formula = .ok q) : Started goal premises q := by
  obtain ⟨s, written, pushed⟩ := Except.exists_of_bind_eq_ok h
  obtain ⟨line, _, rfl⟩ := Except.exists_of_map_eq_ok written
  obtain ⟨goal_eq, premises_eq, _, depth, _⟩ := push_eq_ok pushed
  refine ⟨goal_eq.trans started.goal_eq, premises_eq.trans started.premises_eq, depth,
    started.numbered.push rfl pushed, ?_⟩
  intro t member
  rcases (mem_steps_of_push pushed).1 member with earlier | rfl
  · exact started.steps t earlier
  · exact ⟨⟨rfl, rfl, rfl⟩, listed⟩

theorem start_induction {goal : String} {premises : List String} {P : Proof → Prop}
    (begun : start goal premises = .ok p) (blank : P (blank goal premises))
    (premise : ∀ r formula q, formula ∈ premises → P r → r.pushPremise formula = .ok q → P q) :
    P p :=
  foldlM_induction begun blank premise

theorem started_of_start {goal : String} {premises : List String}
    (h : start goal premises = .ok p) : Started goal premises p := by
  refine start_induction h ?_ fun r formula q listed started pushed =>
    started.pushPremise listed pushed
  exact ⟨rfl, rfl, rfl, ⟨List.Pairwise.nil, by simp [Proof.blank]⟩, by simp [Proof.blank]⟩

/-- An extension adds one step, which writes down what some rule derives. -/
theorem Extends.recorded (h : p.Extends s q) :
    ∃ kind cited input d, p.derive kind cited input = some d ∧ p.Records kind d s ∧
      q.steps = p.steps ++ [s] ∧ q.depth = s.depth := by
  obtain ⟨_, given, pushed⟩ := h
  obtain ⟨cited, d, _, derived, records⟩ := apply_eq_some given
  obtain ⟨_, _, steps, depth, _⟩ := push_eq_ok pushed
  exact ⟨_, cited, _, d, derived, records, steps, depth⟩

private theorem Extends.numbered (h : p.Extends s q) (numbered : p.Numbered) : q.Numbered := by
  obtain ⟨_, given, pushed⟩ := h
  obtain ⟨_, _, _, _, records⟩ := apply_eq_some given
  exact numbered.push records.id_eq pushed

theorem Derivable.numbered {goal : String} {premises : List String}
    (h : Derivable goal premises p) : p.Numbered := by
  induction h with
  | start begun => exact (started_of_start begun).numbered
  | extend _ step ih => exact step.numbered ih

end Proof

end NaturalDeduction
