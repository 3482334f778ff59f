import NaturalDeduction.Proofs.Proof.Conclusions
import NaturalDeduction.Proofs.Proof.Scope

set_option autoImplicit false
set_option relaxedAutoImplicit false

namespace NaturalDeduction

/-- Every step is true where the premises and the assumptions that are open at it are. -/
def Sound (premises : List String) (steps : List Step) : Prop :=
  ∀ before s after, steps = before ++ s :: after → ∀ v : Valuation,
    (∀ t ∈ premises, Holds v t) →
    (∀ a, StillOpen (before ++ [s]) a → a.rule = .assumption → Holds v a.formula) →
    Holds v s.formula

private theorem Sound.concat {premises : List String} {steps : List Step} {s : Step}
    (sound : Sound premises steps)
    (new : ∀ v : Valuation, (∀ t ∈ premises, Holds v t) →
      (∀ a, StillOpen (steps ++ [s]) a → a.rule = .assumption → Holds v a.formula) →
      Holds v s.formula) : Sound premises (steps ++ [s]) :=
  EachStep.concat sound new

namespace Proof

/-- A rule is applied with care: the selected steps are in scope, texts that it takes for the same formula
spell one, and what it concludes can be parsed. -/
inductive Careful (p : Proof) (s : Step) (q : Proof) : Prop
  | apply {rule : Rule} {selected : List StepId} {input : Option String}
      (listed : rule ∈ Rule.table) (given : p.apply rule selected input = .ok (some s))
      (pushed : p.push s = .ok q)
      (inScope : ∀ id ∈ selected, ∃ c, StillOpen p.steps c ∧ c.id = id)
      (faithful : ∀ cited, selected.mapM p.step? = some cited → Derivation.Faithful rule.kind cited)
      (parses : Parses s.formula)

/-- The proofs that come about by applying rules with care to premises that can be parsed. -/
inductive CarefulRun (goal : String) (premises : List String) : Proof → Prop
  | start {p : Proof} (parses : ∀ t ∈ premises, Parses t) (begun : start goal premises = .ok p) :
      CarefulRun goal premises p
  | extend {p q : Proof} {s : Step} (before : CarefulRun goal premises p) (step : p.Careful s q) :
      CarefulRun goal premises q

variable {goal : String} {premises : List String} {p q : Proof} {s : Step}

private theorem Careful.extends (h : p.Careful s q) : p.Extends s q := by
  obtain ⟨listed, given, pushed, _, _, _⟩ := h
  exact ⟨listed, given, pushed⟩

private theorem CarefulRun.derivable (h : CarefulRun goal premises p) : Derivable goal premises p := by
  induction h with
  | start _ begun => exact .start begun
  | extend _ step ih => exact .extend ih step.extends

private theorem CarefulRun.parses (h : CarefulRun goal premises p) : ∀ t ∈ p.steps, Parses t.formula := by
  induction h with
  | start parses begun =>
    intro t member
    exact parses _ ((started_of_start begun).steps t member).2
  | extend _ step ih =>
    obtain ⟨_, _, pushed, _, _, parses⟩ := step
    intro t member
    rcases (mem_steps_of_push pushed).1 member with earlier | rfl
    · exact ih t earlier
    · exact parses

private theorem holds_of_cited (numbered : p.Numbered) (sound : Sound premises p.steps) {v : Valuation}
    (given : ∀ t ∈ premises, Holds v t)
    (opened : ∀ a, StillOpen p.steps a → a.rule = .assumption → Holds v a.formula)
    {ids : List StepId} {cited : List Step} (found : ids.mapM p.step? = some cited)
    (inScope : ∀ id ∈ ids, ∃ c, StillOpen p.steps c ∧ c.id = id) :
    ∀ c ∈ cited, Holds v c.formula := by
  intro c member
  obtain ⟨id, listed, eq⟩ := exists_of_mapM found c member
  obtain ⟨c', ⟨before, after, split, deep⟩, rfl⟩ := inScope id listed
  have inSteps : c' ∈ p.steps := by simp [split]
  have same : c' = c := Option.some.inj ((numbered.step?_eq inSteps).symm.trans eq)
  subst same
  refine sound before c' after split v given ?_
  intro a inside assumed
  refine opened a ?_ assumed
  rw [split]
  exact inside.trans deep

private theorem holds_of_discharges {steps stack : List Step} {opening : Step} (sound : Sound premises steps)
    (parsed : ∀ t ∈ steps, Parses t.formula) (before : Stacked steps (opening :: stack))
    (after : Stacked (steps ++ [s]) stack) (implication : Discharges steps opening s)
    (parses : Parses s.formula) {v : Valuation} (given : ∀ t ∈ premises, Holds v t)
    (opened : ∀ a, StillOpen (steps ++ [s]) a → a.rule = .assumption → Holds v a.formula) :
    Holds v s.formula := by
  obtain ⟨last, final, formula, _⟩ := implication
  obtain ⟨front, rfl⟩ := List.getLast?_eq_some_iff.1 final
  obtain ⟨_, inScope⟩ := before.stillOpen_iff.2 List.mem_cons_self
  obtain ⟨f, antecedent⟩ := parsed opening inScope.mem
  obtain ⟨g, consequent⟩ := parsed last (by simp)
  rw [formula, ← parenthesized_implies] at parses ⊢
  refine Derivation.holds_implication antecedent consequent ?_ parses
  intro assumption
  refine sound front last [] rfl v given ?_
  intro a inside assumed
  -- Of the assumptions that are open at the last step, the new one closes `opening` alone.
  rcases List.mem_cons.1 (before.stillOpen_iff.1 ⟨assumed, inside⟩) with rfl | under
  · exact assumption
  · exact opened a (after.stillOpen_iff.2 under).2 assumed

/-- One more step with care keeps a proof sound. -/
private theorem Careful.sound (run : CarefulRun goal premises p) (sound : Sound premises p.steps)
    (h : p.Careful s q) : Sound premises q.steps := by
  have numbered := run.derivable.numbered
  obtain ⟨stack, after, _⟩ := (Derivable.extend run.derivable h.extends).stacked
  cases h with
  | @apply rule _ _ _ applied pushed inScope faithful parses =>
    obtain ⟨cited, d, found, derived, records⟩ := apply_eq_some applied
    rw [(push_eq_ok pushed).2.2.1] at after ⊢
    obtain ⟨under, before, replayed, _, closing⟩ := after.of_concat
    refine sound.concat ?_
    intro v given opened
    by_cases assumed : rule.kind = .assumption
    · exact opened s (.last p.steps s) (records.rule_eq.trans assumed)
    by_cases closed : rule.kind = .impliesIntro
    · obtain ⟨opening, rfl, implication⟩ := closing (records.rule_eq.trans closed)
      exact holds_of_discharges sound run.parses before after implication parses given opened
    · have kept : s.rule ≠ .assumption ∧ s.rule ≠ .impliesIntro := by
        rw [records.rule_eq]
        exact ⟨assumed, closed⟩
      have same : under = stack :=
        Option.some.inj ((Stacked.replay?_of_continues kept under).symm.trans replayed)
      subst same
      -- The stack stays as it is, so what is open at the steps cited is open at the new one.
      have opened' : ∀ a, StillOpen p.steps a → a.rule = .assumption → Holds v a.formula := by
        intro a inside assumption
        have onStack := before.stillOpen_iff.1 ⟨assumption, inside⟩
        exact opened a (after.stillOpen_iff.2 onStack).2 assumption
      have holds := holds_of_cited numbered sound given opened' found inScope
      rw [records.formula_eq] at parses ⊢
      exact holds_of_derive (RuleKind.placement_of_ne assumed closed) derived holds
        (faithful cited found) parses

private theorem CarefulRun.sound (h : CarefulRun goal premises p) : Sound premises p.steps := by
  induction h with
  | start _ begun =>
    intro before s after split v given _
    exact given _ ((started_of_start begun).steps s (by simp [split])).2
  | extend before step ih => exact step.sound before ih

/-- Careful proofs are sound. Every step is true where the premises and the assumptions open at it are; and
where a proof is done and its last step spells the same formula as the goal, the goal follows from the
premises. -/
theorem goal_follows_of_carefulRun (h : CarefulRun goal premises p) :
    (∀ before s after, p.steps = before ++ s :: after → ∀ v : Valuation,
      (∀ t ∈ premises, Holds v t) →
      (∀ a, StillOpen (before ++ [s]) a → a.rule = .assumption → Holds v a.formula) →
      Holds v s.formula) ∧
    ∀ last f, p.isValid = true → p.last? = some last → Formula.parse last.formula = .ok f →
      Formula.parse goal = .ok f → ∀ v : Valuation, (∀ t ∈ premises, Holds v t) → Holds v goal := by
  refine ⟨h.sound, fun last f valid final parsed wanted v given => ⟨f, wanted, ?_⟩⟩
  have flat : p.depth = 0 := by
    unfold isValid at valid
    rw [final] at valid
    simp only [Bool.and_eq_true, beq_iff_eq] at valid
    exact valid.1
  obtain ⟨stack, stacked, height⟩ := h.derivable.stacked
  have none : stack = [] := List.eq_nil_of_length_eq_zero (height.trans flat)
  obtain ⟨front, split⟩ := List.getLast?_eq_some_iff.1 final
  refine (h.sound front last [] split v given ?_).eval_eq_true parsed
  intro a inside assumed
  rw [← split] at inside
  have onStack := stacked.stillOpen_iff.1 ⟨assumed, inside⟩
  rw [none] at onStack
  cases onStack

theorem goal_follows_of_assumed_detached_discharged :
    ∃ p, CarefulRun "(p) -> (q)" ["p -> q"] p ∧ p.isValid = true ∧
      ∀ v, Holds v "p -> q" → Holds v "(p) -> (q)" := by
  have within : 5 ≤ counterLimit := by decide
  let second : StepId := ⟨2, by decide⟩
  let third : StepId := ⟨3, by decide⟩
  let fourth : StepId := ⟨4, by decide⟩
  let given : Step := ⟨.first, .first, "p -> q", .premise, [], 0, false, false, none⟩
  let assumed : Step :=
    ⟨second, ⟨[1, 1], by decide, by decide⟩, "p", .assumption, [], 1, true, false, none⟩
  let detached : Step :=
    ⟨third, ⟨[1, 2], by decide, by decide⟩, "q", .modusPonens, [.first, second], 1, false, false, none⟩
  let discharged : Step :=
    ⟨fourth, ⟨[2], by decide, by decide⟩, "(p) -> (q)", .impliesIntro, [second, third], 0, false, true,
      none⟩
  have antecedent : Formula.parse "p" = .ok (.var "p") := by cbv
  have premise : Parses "p -> q" := ⟨.binary .implies (.var "p") (.var "q"), by cbv⟩
  have goal : Formula.parse "(p) -> (q)" = .ok (.binary .implies (.var "p") (.var "q")) := by cbv
  have started : CarefulRun "(p) -> (q)" ["p -> q"]
      ⟨"(p) -> (q)", ["p -> q"], [given], 0, second, false⟩ := by
    refine .start ?_ rfl
    intro t member
    rw [List.mem_singleton.1 member]
    exact premise
  have opened : CarefulRun "(p) -> (q)" ["p -> q"]
      ⟨"(p) -> (q)", ["p -> q"], [given, assumed], 1, third, false⟩ :=
    .extend started (@Careful.apply _ assumed _ ⟨.assumption, .assumption, 0⟩ [] (some "p") (by decide)
      (by cbv) rfl (by simp) (fun cited _ => Derivation.faithful_of_ne (by decide) (by decide) cited)
      ⟨_, antecedent⟩)
  have followed : CarefulRun "(p) -> (q)" ["p -> q"]
      ⟨"(p) -> (q)", ["p -> q"], [given, assumed, detached], 1, fourth, false⟩ := by
    refine .extend opened (@Careful.apply _ detached _ ⟨.modusPonens, .basic, 2⟩ [.first, second] none
      (by decide) (by cbv) rfl (fun id listed => ?_) (fun cited found => ?_) ⟨.var "q", by cbv⟩)
    · rcases List.mem_cons.1 listed with rfl | later
      · exact ⟨given, ⟨[], [assumed], rfl, fun t _ => Nat.zero_le t.depth⟩, rfl⟩
      · rw [List.mem_singleton.1 later]
        exact ⟨assumed, .last [given] assumed, rfl⟩
    · have pair : cited = [given, assumed] := Option.some.inj (found.symm.trans rfl)
      have accepted : Derivation.accepted? .modusPonens [given, assumed] = some ("p", "p") := by cbv
      intro s t eq
      rw [pair, accepted] at eq
      cases eq
      exact ⟨_, antecedent, antecedent⟩
  have closed : CarefulRun "(p) -> (q)" ["p -> q"]
      ⟨"(p) -> (q)", ["p -> q"], [given, assumed, detached, discharged], 0, ⟨5, within⟩, false⟩ :=
    .extend followed (@Careful.apply _ discharged _ ⟨.impliesIntro, .introduction, 0⟩ [] none (by decide)
      (by cbv) rfl (by simp) (fun cited _ => Derivation.faithful_of_ne (by decide) (by decide) cited)
      ⟨_, goal⟩)
  have done : isValid ⟨"(p) -> (q)", ["p -> q"], [given, assumed, detached, discharged], 0,
      ⟨5, within⟩, false⟩ = true := by cbv
  refine ⟨_, closed, done, ?_⟩
  intro v holds
  refine (goal_follows_of_carefulRun closed).2 discharged _ done rfl goal goal v ?_
  intro t member
  rw [List.mem_singleton.1 member]
  exact holds

end Proof

end NaturalDeduction
