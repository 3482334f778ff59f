import NaturalDeduction.Proof.Applicability
import NaturalDeduction.Proofs.Proof.Scope

set_option autoImplicit false
set_option relaxedAutoImplicit false

namespace NaturalDeduction

namespace Stacked

variable {steps stack : List Step}

/-- Only an implication introduction takes steps out of scope. Along the way the depth that the step has reached
is kept within the height of the stack. -/
private theorem depth_le_of_closings (h : Stacked steps stack) {before after : List Step} {c : Step}
    (split : steps = before ++ c :: after)
    (closings : ∀ t ∈ after, t.rule = .impliesIntro → c.depth ≤ t.depth) :
    c.depth ≤ stack.length ∧ ∀ t ∈ after, c.depth ≤ t.depth := by
  have extend {rest : List Step} {s : Step} (earlier : ∀ t ∈ rest, c.depth ≤ t.depth)
      (new : c.depth ≤ s.depth) : ∀ t ∈ rest ++ [s], c.depth ≤ t.depth := by
    intro t member
    rcases List.mem_append.1 member with old | last
    · exact earlier t old
    · rw [List.mem_singleton.1 last]
      exact new
  have shorten {rest : List Step} {s : Step}
      (all : ∀ t ∈ rest ++ [s], t.rule = .impliesIntro → c.depth ≤ t.depth) :
      ∀ t ∈ rest, t.rule = .impliesIntro → c.depth ≤ t.depth :=
    fun t member => all t (List.mem_append_left _ member)
  induction h generalizing after with
  | nil => simp at split
  | @opens steps stack s _ _ _ depth ih =>
    rw [List.length_cons]
    rcases split_concat split with ⟨_, rfl, rfl⟩ | ⟨rest, rfl, earlier⟩
    · exact ⟨Nat.le_of_eq depth, by simp⟩
    · obtain ⟨within, deep⟩ := ih earlier (shorten closings)
      exact ⟨by omega, extend deep (by omega)⟩
  | @closes steps stack s top _ rule _ depth _ ih =>
    rcases split_concat split with ⟨_, rfl, rfl⟩ | ⟨rest, rfl, earlier⟩
    · exact ⟨Nat.le_of_eq depth, by simp⟩
    · obtain ⟨_, deep⟩ := ih earlier (shorten closings)
      have new : c.depth ≤ s.depth := closings s (by simp) rule
      exact ⟨by omega, extend deep new⟩
  | @continues steps stack s _ _ _ depth ih =>
    rcases split_concat split with ⟨_, rfl, rfl⟩ | ⟨rest, rfl, earlier⟩
    · exact ⟨Nat.le_of_eq depth, by simp⟩
    · obtain ⟨within, deep⟩ := ih earlier (shorten closings)
      exact ⟨within, extend deep (by omega)⟩

end Stacked

private theorem Derivation.dependencies_of_caseSplit {cited : List Step} {d : Derivation}
    (h : caseSplit cited = some d) : d.dependencies = cited.map Step.id := by
  unfold caseSplit at h
  split at h
  · obtain ⟨_, _, h⟩ := Option.bind_eq_some_iff.1 h
    obtain ⟨_, _, h⟩ := Option.bind_eq_some_iff.1 h
    cases h
    rfl
  · cases h

private theorem Derivation.dependencies_of_assumption {input : Option String} {d : Derivation}
    (h : assumption input = some d) : d.dependencies = [] := by
  obtain ⟨_, _, eq⟩ := Option.bind_eq_some_iff.1 h
  cases eq
  rfl

theorem Rule.citations_eq_zero {rule : Rule} (listed : rule ∈ Rule.table)
    (kind : rule.kind = .assumption ∨ rule.kind = .excludedMiddle) : rule.citations = 0 := by
  have all : ∀ rule ∈ Rule.table, rule.kind = .assumption ∨ rule.kind = .excludedMiddle →
      rule.citations = 0 := by decide
  exact all rule listed kind

namespace Proof

variable {goal : String} {premises : List String} {p : Proof} {s : Step} {rule : Rule}
  {selected : List StepId} {input : Option String}

private theorem dependencies_of_derive {cited : List Step} {d : Derivation} (listed : rule ∈ Rule.table)
    (other : rule.kind ≠ .impliesIntro) (count : cited.length = rule.citations)
    (h : p.derive rule.kind cited input = some d) : d.dependencies = cited.map Step.id := by
  have alone (kind : rule.kind = .assumption ∨ rule.kind = .excludedMiddle) :
      ([] : List StepId) = cited.map Step.id := by
    rw [List.eq_nil_of_length_eq_zero (count.trans (Rule.citations_eq_zero listed kind))]
    rfl
  cases kind : rule.kind with
  | premise =>
    rw [kind] at h
    cases h
  | impliesIntro => exact absurd kind other
  | assumption =>
    rw [kind] at h
    exact (Derivation.dependencies_of_assumption h).trans (alone (Or.inl kind))
  | excludedMiddle =>
    rw [kind] at h
    obtain ⟨_, _, _, rfl⟩ := Derivation.excludedMiddle_eq_some h
    exact alone (Or.inr kind)
  | modusPonens | modusTollens =>
    rw [kind] at h
    obtain ⟨_, _, _, rfl, _, rfl⟩ := Derivation.matched_eq_some h
    rfl
  | andIntro =>
    rw [kind] at h
    obtain ⟨_, _, _, _, rfl, _, _, rfl⟩ := Derivation.conjunction_eq_some h
    rfl
  | andElimLeft | andElimRight | doubleNegation =>
    rw [kind] at h
    obtain ⟨_, _, _, rfl, _, _, rfl⟩ := Derivation.part_eq_some h
    rfl
  | orIntroLeft | orIntroRight =>
    rw [kind] at h
    simp only [derive] at h
    obtain ⟨_, _, _, _, rfl, _, _, _, rfl⟩ := Derivation.disjunction_eq_some h
    rfl
  | orElim =>
    rw [kind] at h
    exact Derivation.dependencies_of_caseSplit h

theorem map_id_of_mapM {ids : List StepId} {cited : List Step} (h : ids.mapM p.step? = some cited) :
    cited.map Step.id = ids ∧ ∀ c ∈ cited, c ∈ p.steps := by
  constructor
  · have number (id : StepId) (c : Step) (found : p.step? id = some c) : id = c.id := by
      have same : c.id = id := by simpa using List.find?_some found
      exact same.symm
    have numbers := (mapM_eq_some.1 h).imp number
    rw [← List.forall₂_map_right_iff, List.forall₂_eq_eq_eq] at numbers
    exact numbers.symm
  · intro c member
    obtain ⟨id, _, found⟩ := exists_of_mapM h c member
    exact List.mem_of_find?_eq_some found

theorem length_of_apply (h : p.apply rule selected input = .ok (some s)) :
    selected.length = rule.citations := by
  obtain ⟨_, _, count, _⟩ := derive_of_apply h
  exact count

theorem exists_of_mem_selected (h : p.apply rule selected input = .ok (some s)) {id : StepId}
    (member : id ∈ selected) : ∃ c ∈ p.steps, c.id = id := by
  obtain ⟨cited, _, _, found, _⟩ := derive_of_apply h
  obtain ⟨numbers, members⟩ := map_id_of_mapM found
  rw [← numbers] at member
  obtain ⟨c, inCited, rfl⟩ := List.mem_map.1 member
  exact ⟨c, members c inCited, rfl⟩

/-- What a rule cites are steps of the proof, with the selected numbers in their order. -/
theorem dependencies_of_apply (listed : rule ∈ Rule.table) (other : rule.kind ≠ .impliesIntro)
    (h : p.apply rule selected input = .ok (some s)) :
    s.dependencies = selected ∧ ∀ id ∈ selected, ∃ c ∈ p.steps, c.id = id := by
  obtain ⟨cited, d, found, derived, records⟩ := apply_eq_some h
  obtain ⟨numbers, _⟩ := map_id_of_mapM found
  have count : cited.length = rule.citations := by
    rw [← length_of_apply h, ← numbers, List.length_map]
  refine ⟨?_, fun id member => exists_of_mem_selected h member⟩
  rw [records.dependencies_eq, dependencies_of_derive listed other count derived, numbers]

private theorem Numbered.depth_le_of_stillOpen (numbered : p.Numbered) {before after : List Step} {c : Step}
    (split : p.steps = before ++ c :: after) (inScope : StillOpen p.steps c) :
    ∀ t ∈ after, c.depth ≤ t.depth := by
  obtain ⟨front, back, eq, deep⟩ := inScope
  intro t member
  have increasing := numbered.increasing
  have less : c.id.val < t.id.val := by
    rw [split, List.pairwise_append, List.pairwise_cons] at increasing
    exact increasing.2.1.1 t member
  have inSteps : t ∈ p.steps := by simp [split, member]
  rw [eq, List.pairwise_append, List.pairwise_cons] at increasing
  rw [eq] at inSteps
  rcases List.mem_append.1 inSteps with earlier | here
  · have reverse := increasing.2.2 t earlier c List.mem_cons_self
    omega
  · rcases List.mem_cons.1 here with rfl | later
    · exact absurd less (Nat.lt_irrefl _)
    · exact deep t later

/-- When citations are in scope. A rule of the table other than the one that closes a subproof cites the selected
steps in their order, and all that it cites is in scope just if no implication introduction after a selected
step stands less deep than the step: applying the rule does not look at this. -/
theorem citations_inScope_iff (run : Derivable goal premises p) (listed : rule ∈ Rule.table)
    (other : rule.kind ≠ .impliesIntro) (given : p.apply rule selected input = .ok (some s)) :
    s.dependencies = selected ∧
      ((∀ id ∈ s.dependencies, ∃ c, StillOpen p.steps c ∧ c.id = id) ↔
        ∀ before c after, p.steps = before ++ c :: after → c.id ∈ selected →
          ∀ t ∈ after, t.rule = .impliesIntro → c.depth ≤ t.depth) := by
  obtain ⟨cites, exist⟩ := dependencies_of_apply listed other given
  obtain ⟨stack, stacked, _⟩ := run.stacked
  refine ⟨cites, ?_⟩
  rw [cites]
  constructor
  · intro inScope before c after split chosen t later _
    obtain ⟨c', stillOpen, same⟩ := inScope c.id chosen
    have inSteps : c ∈ p.steps := by simp [split]
    have eq : c' = c := run.numbered.eq_of_id stillOpen.mem inSteps same
    subst eq
    exact run.numbered.depth_le_of_stillOpen split stillOpen t later
  · intro closings id chosen
    obtain ⟨c, inSteps, rfl⟩ := exist id chosen
    obtain ⟨before, after, split⟩ := List.append_of_mem inSteps
    have deep := (stacked.depth_le_of_closings split (closings before c after split chosen)).2
    exact ⟨c, ⟨before, after, split, deep⟩, rfl⟩

/-- A falsehood that has been assumed, and the implication that closes the subproof. -/
def closedFalsehood : Proof where
  goal := "F"
  premises := []
  steps :=
    [⟨.first, .first, "F", .assumption, [], 1, true, false, none⟩,
     ⟨⟨2, by decide⟩, ⟨[2], by decide, by decide⟩, "(F) -> (F)", .impliesIntro, [.first], 0, false, true,
       none⟩]
  depth := 0
  nextId := ⟨3, by decide⟩
  complete := false

theorem derivable_closedFalsehood : Derivable "F" [] closedFalsehood := by
  have opened : Derivable "F" [] ⟨"F", [], closedFalsehood.steps.take 1, 1, ⟨2, by decide⟩, false⟩ :=
    .extend (.start rfl)
      (@Extends.apply _ ⟨.first, .first, "F", .assumption, [], 1, true, false, none⟩ _
        ⟨.assumption, .assumption, 0⟩ [] (some "F") (by decide) (by cbv) rfl)
  exact .extend opened
    (@Extends.apply _
      ⟨⟨2, by decide⟩, ⟨[2], by decide, by decide⟩, "(F) -> (F)", .impliesIntro, [.first], 0, false, true,
        none⟩ _
      ⟨.impliesIntro, .introduction, 0⟩ [] none (by decide) (by cbv) rfl)

private theorem split_closedFalsehood {before after : List Step} {c : Step}
    (h : closedFalsehood.steps = before ++ c :: after) :
    (c.id = .first ∧ c.depth = 1 ∧ ∃ t ∈ after, t.depth = 0) ∨ (c.id ≠ .first ∧ after = []) := by
  match before with
  | [] =>
    cases h
    exact Or.inl ⟨rfl, rfl, _, List.mem_cons_self, rfl⟩
  | [_] =>
    cases h
    exact Or.inr ⟨by decide, rfl⟩
  | _ :: _ :: _ => simp [closedFalsehood] at h

/-- The implication stands outside of the closed subproof, so that citing it twice stays in scope. -/
theorem citations_inScope_of_closing_step :
    ∃ s, closedFalsehood.apply ⟨.andIntro, .introduction, 2⟩ [⟨2, by decide⟩, ⟨2, by decide⟩] none =
        .ok (some s) ∧
      s.dependencies = [⟨2, by decide⟩, ⟨2, by decide⟩] ∧
      ∀ id ∈ s.dependencies, ∃ c, StillOpen closedFalsehood.steps c ∧ c.id = id := by
  have given : closedFalsehood.apply ⟨.andIntro, .introduction, 2⟩ [⟨2, by decide⟩, ⟨2, by decide⟩]
      none = .ok (some ⟨⟨3, by decide⟩, ⟨[3], by decide, by decide⟩, "((F) -> (F)) ^ ((F) -> (F))",
        .andIntro, [⟨2, by decide⟩, ⟨2, by decide⟩], 0, false, false, none⟩) := by cbv
  obtain ⟨cites, inScope⟩ :=
    citations_inScope_iff derivable_closedFalsehood (by decide) (by decide) given
  refine ⟨_, given, cites, inScope.2 ?_⟩
  intro before c after split chosen t later _
  rcases split_closedFalsehood split with ⟨first, _, _⟩ | ⟨_, none⟩
  · rw [first] at chosen
    exact absurd chosen (by decide)
  · rw [none] at later
    cases later

/-- The assumption of a closed subproof is cited, and then a falsehood counts as proved from nothing, although the
rule counts as one that cannot be attempted. -/
theorem discharged_assumption_is_cited :
    ∃ s q, Derivable "F" [] closedFalsehood ∧ ⟨.modusPonens, .basic, 2⟩ ∈ Rule.table ∧
      closedFalsehood.apply ⟨.modusPonens, .basic, 2⟩ [.first, ⟨2, by decide⟩] none = .ok (some s) ∧
      .first ∈ s.dependencies ∧ (¬∃ c, StillOpen closedFalsehood.steps c ∧ c.id = .first) ∧
      closedFalsehood.push s = .ok q ∧ q.isValid = true ∧
      closedFalsehood.obstacle ⟨.modusPonens, .basic, 2⟩ = some (.tooFewSteps 2) := by
  refine ⟨⟨⟨3, by decide⟩, ⟨[3], by decide, by decide⟩, "F", .modusPonens, [.first, ⟨2, by decide⟩], 0,
    false, false, none⟩, _, derivable_closedFalsehood, by decide, by cbv, by decide, ?_, rfl, by cbv,
    by cbv⟩
  rintro ⟨c, ⟨before, after, split, deep⟩, number⟩
  rcases split_closedFalsehood split with ⟨_, depth, t, later, shallow⟩ | ⟨other, _⟩
  · have le := deep t later
    omega
  · exact other number

end Proof

end NaturalDeduction
