import NaturalDeduction.Proofs.Proof.Conclusions
import NaturalDeduction.Proofs.Proof.LineBounds

set_option autoImplicit false
set_option relaxedAutoImplicit false

namespace NaturalDeduction

namespace Rule

variable {rule : Rule}

private theorem citations_le_two (listed : rule ∈ Rule.table) : rule.citations ≤ 2 := by
  have all : ∀ rule ∈ Rule.table, rule.citations ≤ 2 := by decide
  exact all rule listed

private theorem kind_of_citations_eq_two (listed : rule ∈ Rule.table) (two : rule.citations = 2) :
    rule.kind = .modusPonens ∨ rule.kind = .modusTollens ∨ rule.kind = .andIntro := by
  have all : ∀ rule ∈ Rule.table, rule.citations = 2 →
      rule.kind = .modusPonens ∨ rule.kind = .modusTollens ∨ rule.kind = .andIntro := by decide
  exact all rule listed two

private theorem eq_of_kind {other : Rule} (listed : rule ∈ Rule.table) (listed' : other ∈ Rule.table)
    (same : rule.kind = other.kind) : rule = other := by
  have all : ∀ rule ∈ Rule.table, ∀ other ∈ Rule.table, rule.kind = other.kind → rule = other := by
    decide
  exact all rule listed other listed' same

end Rule

private theorem Derivation.isDisjunction_of_caseSplit {cited : List Step} {d : Derivation}
    (h : caseSplit cited = some d) : ∃ a ∈ cited, Proof.isDisjunction a = true := by
  obtain ⟨a, f, sides, rfl, whole, apart, _⟩ := caseSplit_eq_some h
  refine ⟨a, List.mem_singleton_self a, ?_⟩
  simp [Proof.isDisjunction, whole, apart]

namespace Proof

variable {goal : String} {premises : List String} {p : Proof} {s c : Step} {rule : Rule}
  {selected : List StepId} {input : Option String}

private theorem obstacle_eq_none_of_le_available (given : p.apply rule selected input = .ok (some s))
    (enough : rule.citations ≤ p.available) : p.obstacle rule = none := by
  obtain ⟨cited, d, _, found, derived, _⟩ := derive_of_apply given
  unfold obstacle
  cases kind : rule.kind with
  | premise =>
    rw [kind] at derived
    cases derived
  | impliesIntro =>
    rw [kind] at derived
    obtain ⟨_, _, opened, _⟩ := Derivation.discharge_eq_some derived
    exact if_pos (depth_pos_of_openAssumption? opened)
  | orElim =>
    rw [kind] at derived
    obtain ⟨a, member, disjunction⟩ := Derivation.isDisjunction_of_caseSplit derived
    have inSteps := (map_id_of_mapM found).2 a member
    exact if_pos (List.any_eq_true.2 ⟨a, inSteps, disjunction⟩)
  | assumption | excludedMiddle => rfl
  | modusPonens | modusTollens | andIntro | andElimLeft | andElimRight | orIntroLeft | orIntroRight
  | doubleNegation => exact if_pos enough

private theorem le_available_of_obstacle_eq_none (listed : rule ∈ Rule.table) (two : rule.citations = 2)
    (h : p.obstacle rule = none) : 2 ≤ p.available := by
  have counted : p.obstacle rule =
      if rule.citations ≤ p.available then none else some (.tooFewSteps rule.citations) := by
    unfold obstacle
    rcases Rule.kind_of_citations_eq_two listed two with kind | kind | kind <;> rw [kind]
  rw [counted, two] at h
  by_contra few
  rw [if_neg few] at h
  cases h

private theorem available_pos (consistent : p.Consistent) (member : c ∈ p.steps) : 0 < p.available := by
  obtain ⟨front, last, split, final⟩ := exists_last?_of_mem member
  have level : last.depth ≤ p.depth := by
    rw [consistent.depth_eq, lastDepth_of_last? final]
  exact List.countP_pos_iff.2 ⟨last, List.mem_of_getLast? final, by simpa using level⟩

private theorem Numbered.nodup (numbered : p.Numbered) : p.steps.Nodup := by
  refine numbered.increasing.imp fun {s t} less same => ?_
  rw [same] at less
  exact Nat.lt_irrefl _ less

private theorem two_le_available_iff (numbered : p.Numbered) :
    2 ≤ p.available ↔
      ∃ a ∈ p.steps, ∃ b ∈ p.steps, a ≠ b ∧ a.depth ≤ p.depth ∧ b.depth ≤ p.depth := by
  have different : (p.steps.filter fun t => t.depth ≤ p.depth).Nodup := numbered.nodup.filter _
  rw [available, List.countP_eq_length_filter, ← List.toFinset_card_of_nodup different]
  change 1 < _ ↔ _
  rw [Finset.one_lt_card]
  simp only [List.mem_toFinset, List.mem_filter, decide_eq_true_eq]
  constructor
  · rintro ⟨a, ⟨first, above⟩, b, ⟨second, below⟩, ne⟩
    exact ⟨a, first, b, second, ne, above, below⟩
  · rintro ⟨a, first, b, second, ne, above, below⟩
    exact ⟨a, ⟨first, above⟩, b, ⟨second, below⟩, ne⟩

private theorem depth_le_of_stillOpen (consistent : p.Consistent) (inScope : StillOpen p.steps c) :
    c.depth ≤ p.depth := by
  obtain ⟨front, last, split, final⟩ := exists_last?_of_mem inScope.mem
  rw [consistent.depth_eq, lastDepth_of_last? final]
  rw [split, StillOpen.concat_iff] at inScope
  rcases inScope with rfl | ⟨_, le⟩
  · exact Nat.le_refl _
  · exact le

/-- When a rule that applies can be attempted. A rule of the table that gives a step can be attempted, unless it cites
two steps and there are no two different steps that are not deeper than the proof; it always can where the selected
steps are in scope and none of them is selected twice. -/
theorem obstacle_eq_none_iff_of_apply (run : Reachable goal premises p) (listed : rule ∈ Rule.table)
    (given : p.apply rule selected input = .ok (some s)) :
    (p.obstacle rule = none ↔
      (rule.citations = 2 →
        ∃ a ∈ p.steps, ∃ b ∈ p.steps, a ≠ b ∧ a.depth ≤ p.depth ∧ b.depth ≤ p.depth)) ∧
      (selected.Nodup → (∀ id ∈ selected, ∃ c, StillOpen p.steps c ∧ c.id = id) →
        p.obstacle rule = none) := by
  have consistent := run.consistent
  have count := length_of_apply given
  have free : p.obstacle rule = none ↔
      (rule.citations = 2 →
        ∃ a ∈ p.steps, ∃ b ∈ p.steps, a ≠ b ∧ a.depth ≤ p.depth ∧ b.depth ≤ p.depth) := by
    rw [← two_le_available_iff consistent.numbered]
    constructor
    · intro none two
      exact le_available_of_obstacle_eq_none listed two none
    · intro enough
      refine obstacle_eq_none_of_le_available given ?_
      have few := Rule.citations_le_two listed
      rcases Nat.lt_or_ge rule.citations 2 with less | two
      · cases selected with
        | nil =>
          rw [← count]
          exact Nat.zero_le _
        | cons id _ =>
          obtain ⟨c, inSteps, _⟩ := exists_of_mem_selected given (List.mem_cons_self (a := id))
          have positive := available_pos consistent inSteps
          omega
      · exact Nat.le_trans few (enough (Nat.le_antisymm few two))
  refine ⟨free, fun different inScope => free.2 fun two => ?_⟩
  obtain ⟨i, j, rfl⟩ := List.length_eq_two.1 (count.trans two)
  obtain ⟨a, first, rfl⟩ := inScope i (by simp)
  obtain ⟨b, second, rfl⟩ := inScope j (by simp)
  have ne : a ≠ b := by
    rintro rfl
    simp at different
  exact ⟨a, first.mem, b, second.mem, ne, depth_le_of_stillOpen consistent first,
    depth_le_of_stillOpen consistent second⟩

/-- Two assumptions, one in the subproof of the other, are both in scope and are put together. -/
theorem obstacle_eq_none_of_nested_conjunction :
    ∃ s, nestedAssumptions.apply ⟨.andIntro, .introduction, 2⟩ [⟨2, by decide⟩, ⟨3, by decide⟩] none =
        .ok (some s) ∧
      s.formula = "(q) ^ (r)" ∧ nestedAssumptions.obstacle ⟨.andIntro, .introduction, 2⟩ = none := by
  have given : nestedAssumptions.apply ⟨.andIntro, .introduction, 2⟩ [⟨2, by decide⟩, ⟨3, by decide⟩]
      none = .ok (some ⟨⟨4, by decide⟩, ⟨[1, 1, 2], by decide, by decide⟩, "(q) ^ (r)", .andIntro,
        [⟨2, by decide⟩, ⟨3, by decide⟩], 2, false, false, none⟩) := by cbv
  refine ⟨_, given, rfl, ?_⟩
  refine (obstacle_eq_none_iff_of_apply derivable_nestedAssumptions.reachable (by decide) given).2
    (by decide) ?_
  intro id chosen
  rcases List.mem_cons.1 chosen with rfl | later
  · exact ⟨_, ⟨nestedAssumptions.steps.take 1, nestedAssumptions.steps.drop 2, rfl, by decide⟩, rfl⟩
  · rw [List.mem_singleton.1 later]
    exact ⟨_, .last (nestedAssumptions.steps.take 2) _, rfl⟩

/-- Rules apply that cannot be attempted: one to a step that is selected twice, the other to the assumption of a
closed subproof. -/
theorem too_few_steps_to_attempt :
    ∃ s t, Derivable "F" [] closedFalsehood ∧
      ⟨.andIntro, .introduction, 2⟩ ∈ Rule.table ∧
      closedFalsehood.apply ⟨.andIntro, .introduction, 2⟩ [⟨2, by decide⟩, ⟨2, by decide⟩] none =
        .ok (some s) ∧
      closedFalsehood.obstacle ⟨.andIntro, .introduction, 2⟩ = some (.tooFewSteps 2) ∧
      ⟨.modusPonens, .basic, 2⟩ ∈ Rule.table ∧
      closedFalsehood.apply ⟨.modusPonens, .basic, 2⟩ [.first, ⟨2, by decide⟩] none =
        .ok (some t) ∧
      closedFalsehood.obstacle ⟨.modusPonens, .basic, 2⟩ = some (.tooFewSteps 2) := by
  refine ⟨⟨⟨3, by decide⟩, ⟨[3], by decide, by decide⟩, "((F) -> (F)) ^ ((F) -> (F))", .andIntro,
      [⟨2, by decide⟩, ⟨2, by decide⟩], 0, false, false, none⟩,
    ⟨⟨3, by decide⟩, ⟨[3], by decide, by decide⟩, "F", .modusPonens, [.first, ⟨2, by decide⟩], 0, false,
      false, none⟩,
    derivable_closedFalsehood, by decide, by cbv, by cbv, by decide, by cbv, by cbv⟩

private theorem exists_discharge (consistent : p.Consistent) (opened : p.openAssumption? = some c) :
    ∃ d, Derivation.discharge p = some d := by
  have deep := depth_pos_of_openAssumption? opened
  have depth := consistent.depth_eq
  cases final : p.last? with
  | none =>
    rw [lastDepth, final] at depth
    exact absurd depth (Nat.ne_of_gt deep)
  | some last =>
    rw [lastDepth_of_last? final] at depth
    simp [Derivation.discharge, opened, final, depth, guard]

private theorem Derivable.exists_openAssumption? (run : Derivable goal premises p) (deep : 0 < p.depth) :
    ∃ a, p.openAssumption? = some a := by
  obtain ⟨stack, stacked, height⟩ := run.stacked
  rw [openAssumption?_eq stacked height]
  cases stack with
  | nil => exact absurd height (Nat.ne_of_lt deep)
  | cons opening _ => exact ⟨opening, rfl⟩

private theorem exists_caseSplit (disjunction : isDisjunction c = true) :
    ∃ d, Derivation.caseSplit [c] = some d := by
  obtain ⟨sides, found⟩ := Option.isSome_iff_exists.1 disjunction
  obtain ⟨f, read, apart⟩ := Option.bind_eq_some_iff.1 found
  simp [Derivation.caseSplit, read, apart]

private theorem exists_deriveFrom_of_deep (run : Derivable goal premises p) (listed : rule ∈ Rule.table)
    (closes : rule.kind = .impliesIntro) (deep : 0 < p.depth) (input : Option String) :
    ∃ d, p.deriveFrom rule [] input = some d := by
  obtain rfl : rule = ⟨.impliesIntro, .introduction, 0⟩ := Rule.eq_of_kind listed (by decide) closes
  obtain ⟨a, opened⟩ := run.exists_openAssumption? deep
  obtain ⟨d, derived⟩ := exists_discharge run.reachable.consistent opened
  exact ⟨d, deriveFrom_eq_some.2 ⟨rfl, [], rfl, derived⟩⟩

private theorem exists_deriveFrom (run : Derivable goal premises p) (listed : rule ∈ Rule.table)
    (uncounted : rule.kind ∈ [.assumption, .excludedMiddle, .orElim, .impliesIntro])
    (free : p.obstacle rule = none) :
    ∃ selected input d, p.deriveFrom rule selected input = some d := by
  have parsed : Formula.parse "p" = .ok (.var "p") := by cbv
  simp only [List.mem_cons, List.not_mem_nil, or_false] at uncounted
  rcases uncounted with kind | kind | kind | kind
  · obtain rfl : rule = ⟨.assumption, .assumption, 0⟩ := Rule.eq_of_kind listed (by decide) kind
    exact ⟨[], some "p", _,
      deriveFrom_eq_some.2 ⟨rfl, [], rfl, Derivation.assumption_of_parse parsed⟩⟩
  · obtain rfl : rule = ⟨.excludedMiddle, .basic, 0⟩ := Rule.eq_of_kind listed (by decide) kind
    exact ⟨[], some "p", _,
      deriveFrom_eq_some.2 ⟨rfl, [], rfl, Derivation.excludedMiddle_of_parse parsed⟩⟩
  · obtain rfl : rule = ⟨.orElim, .elimination, 1⟩ := Rule.eq_of_kind listed (by decide) kind
    have some : p.steps.any isDisjunction = true := by
      by_contra none
      simp [obstacle, none] at free
    obtain ⟨a, inSteps, disjunction⟩ := List.any_eq_true.1 some
    obtain ⟨d, derived⟩ := exists_caseSplit disjunction
    have found : [a.id].mapM p.step? = Option.some [a] := by simp [run.numbered.step?_eq inSteps]
    exact ⟨[a.id], none, d, deriveFrom_eq_some.2 ⟨rfl, [a], found, derived⟩⟩
  · have deep : 0 < p.depth := by
      by_contra flat
      simp [obstacle, kind, flat] at free
    obtain ⟨d, derived⟩ := exists_deriveFrom_of_deep run listed kind deep none
    exact ⟨[], none, d, derived⟩

private theorem citations_le_available (consistent : p.Consistent)
    (given : p.apply rule selected input = .ok (some s)) (single : rule.citations ≤ 1) :
    rule.citations ≤ p.available := by
  rcases Nat.le_one_iff_eq_zero_or_eq_one.1 single with none | one
  · rw [none]
    exact Nat.zero_le _
  · obtain ⟨id, rfl⟩ := List.length_eq_one_iff.1 ((length_of_apply given).trans one)
    obtain ⟨c, inSteps, _⟩ := exists_of_mem_selected given (List.mem_singleton_self id)
    rw [one]
    exact available_pos consistent inSteps

/-- A rule that is attempted without counting steps can be attempted just if there are a selection and an input to
which it applies. An implication introduction applies without any selected steps wherever a subproof is open. -/
theorem obstacle_eq_none_iff_exists_apply (run : Derivable goal premises p)
    (listed : rule ∈ Rule.table)
    (uncounted : rule.kind ∈ [.assumption, .excludedMiddle, .orElim, .impliesIntro]) :
    (p.obstacle rule = none ↔
      ∃ selected input s, p.apply rule selected input = .ok (some s)) ∧
    (rule.kind = .impliesIntro → 0 < p.depth →
      ∀ input, ∃ s, p.apply rule [] input = .ok (some s)) := by
  refine ⟨⟨fun free => ?_, ?_⟩, fun closes deep input => ?_⟩
  · obtain ⟨selected, input, d, derived⟩ := exists_deriveFrom run listed uncounted free
    obtain ⟨s, applied, _⟩ := run.reachable.exists_apply derived
    exact ⟨selected, input, s, applied⟩
  · rintro ⟨selected, input, s, given⟩
    have single : ∀ rule ∈ Rule.table,
        rule.kind ∈ [.assumption, .excludedMiddle, .orElim, .impliesIntro] → rule.citations ≤ 1 := by
      decide
    exact obstacle_eq_none_of_le_available given
      (citations_le_available run.reachable.consistent given (single rule listed uncounted))
  · obtain ⟨d, derived⟩ := exists_deriveFrom_of_deep run listed closes deep input
    obtain ⟨s, applied, _⟩ := run.reachable.exists_apply derived
    exact ⟨s, applied⟩

/-- The inner of two assumptions is open, and no steps need to be selected to discharge it. -/
theorem obstacle_eq_none_of_nested_discharge :
    nestedAssumptions.obstacle ⟨.impliesIntro, .introduction, 0⟩ = none ∧
      ∃ s, nestedAssumptions.apply ⟨.impliesIntro, .introduction, 0⟩ [] none = .ok (some s) := by
  have listed : ⟨.impliesIntro, .introduction, 0⟩ ∈ Rule.table := by decide
  obtain ⟨free, applies⟩ :=
    obstacle_eq_none_iff_exists_apply derivable_nestedAssumptions listed (by decide)
  obtain ⟨s, applied⟩ := applies rfl (by decide) none
  exact ⟨free.2 ⟨[], none, s, applied⟩, s, applied⟩

end Proof

end NaturalDeduction
