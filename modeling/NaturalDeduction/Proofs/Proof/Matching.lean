import NaturalDeduction.Proofs.Formula.Comparison
import NaturalDeduction.Proofs.Proof.Citations
import NaturalDeduction.Proofs.Proof.Introductions

/-!
Selecting two steps in either order. Modus ponens and modus tollens take the first of the two orders that matches, and
at most one does. An antecedent that a step is taken for has as many signs as the step and fewer than its implication,
so that two steps cannot both be the antecedent of the other one; and an implication is not a negation.
-/

set_option autoImplicit false
set_option relaxedAutoImplicit false

namespace NaturalDeduction

namespace Derivation

variable {a b minor major : Step} {t : String}

/-- The second step is an implication, and the first one is taken for its antecedent. -/
theorem detach?_eq_some :
    detach? minor major = some t ↔ ∃ f g, Formula.parse major.formula = .ok (.binary .implies f g) ∧
      Comparison.sameFormula minor.formula f.text = true ∧ t = g.text := by
  constructor
  · intro h
    obtain ⟨whole, read, h⟩ := Option.bind_eq_some_iff.1 h
    obtain ⟨⟨f, g⟩, shape, h⟩ := Option.bind_eq_some_iff.1 h
    obtain ⟨_, guarded, h⟩ := Option.bind_eq_some_iff.1 h
    rw [Formula.implication_eq_some shape] at read
    have same : Comparison.sameFormula minor.formula f.text = true := by
      by_contra other
      simp [guard, other] at guarded
    exact ⟨f, g, read?_eq_some.1 read, same, (Option.some.inj h).symm⟩
  · rintro ⟨f, g, parsed, same, rfl⟩
    simp [detach?, read?_eq_some.2 parsed, Formula.implication, guard, same]

/-- At most one order of any two steps matches. -/
def MatchesOneWay (conclude : Step → Step → Option String) : Prop :=
  ∀ a b t, conclude a b = some t → conclude b a = none

theorem matchesOneWay_detach? : MatchesOneWay detach? := by
  intro a b t first
  cases second : detach? b a with
  | none => rfl
  | some u =>
    obtain ⟨f, g, parsed, same, _⟩ := detach?_eq_some.1 first
    obtain ⟨h, k, parsed', same', _⟩ := detach?_eq_some.1 second
    have named := Formula.wellNamed_left (Formula.wellNamed_of_parse parsed)
    have named' := Formula.wellNamed_left (Formula.wellNamed_of_parse parsed')
    -- each implication would have as many signs as the antecedent of the other one
    have lengths := Comparison.length_inOrder_of_sameFormula parsed' named same
    have lengths' := Comparison.length_inOrder_of_sameFormula parsed named' same'
    simp only [Formula.inOrder, List.length_append, List.length_cons] at lengths lengths'
    omega

private theorem matchesOneWay_refute? : MatchesOneWay refute? := by
  intro a b t first
  cases second : refute? b a with
  | none => rfl
  | some u =>
    obtain ⟨f, g, k, implication, _⟩ := refute?_eq_some first
    obtain ⟨f', g', k', _, negation, _⟩ := refute?_eq_some second
    cases implication.symm.trans negation

variable {conclude : Step → Step → Option String}

theorem eitherOrder_comm (oneWay : MatchesOneWay conclude) (a b : Step) :
    eitherOrder b a conclude = eitherOrder a b conclude := by
  unfold eitherOrder
  cases first : conclude a b with
  | none => rw [Option.or_none, Option.none_or]
  | some t => rw [oneWay a b t first, Option.none_or, Option.some_or]

private theorem matched_swap (oneWay : MatchesOneWay conclude) (a b : Step) :
    matched conclude [b, a] =
      (matched conclude [a, b]).map fun d => { d with dependencies := [b.id, a.id] } := by
  simp only [matched]
  rw [eitherOrder_comm oneWay a b]
  cases eitherOrder a b conclude <;> rfl

end Derivation

namespace Proof

variable {p : Proof} {rule : Rule} {input : Option String}

private theorem exists_matched (p : Proof) (input : Option String) {kind : RuleKind}
    (matching : kind ∈ [.modusPonens, .modusTollens]) :
    ∃ conclude, Derivation.MatchesOneWay conclude ∧
      ∀ cited, p.derive kind cited input = Derivation.matched conclude cited := by
  simp only [List.mem_cons, List.not_mem_nil, or_false] at matching
  rcases matching with rfl | rfl
  · exact ⟨_, Derivation.matchesOneWay_detach?, fun _ => rfl⟩
  · exact ⟨_, Derivation.matchesOneWay_refute?, fun _ => rfl⟩

private theorem placement_of_matching {kind : RuleKind} (matching : kind ∈ [.modusPonens, .modusTollens]) :
    kind.placement = .continues := by
  simp only [List.mem_cons, List.not_mem_nil, or_false] at matching
  rcases matching with rfl | rfl <;> rfl

private theorem placement_of_deriveFrom {selected : List StepId} {d : Derivation}
    (h : p.deriveFrom rule selected input = some d) : d.placement = rule.kind.placement := by
  obtain ⟨_, _, _, derived⟩ := deriveFrom_eq_some.1 h
  exact placement_of_derive derived

private theorem deriveFrom_pair (p : Proof) (rule : Rule) (i j : StepId) (input : Option String) :
    p.deriveFrom rule [i, j] input =
      if rule.citations = 2 then
        (p.step? i).bind fun a => (p.step? j).bind fun b => p.derive rule.kind [a, b] input
      else none := by
  unfold deriveFrom
  split
  · rename_i count
    cases first : p.step? i with
    | none => simp [first]
    | some a => cases second : p.step? j <;> simp [first, second, guard, count]
  · rename_i count
    simp [guard, Ne.symm count]

private theorem deriveFrom_swap (p : Proof) (matching : rule.kind ∈ [.modusPonens, .modusTollens])
    (i j : StepId) (input : Option String) :
    p.deriveFrom rule [j, i] input =
      (p.deriveFrom rule [i, j] input).map fun d => { d with dependencies := [j, i] } := by
  obtain ⟨conclude, oneWay, derive⟩ := exists_matched p input matching
  rw [deriveFrom_pair, deriveFrom_pair]
  split
  · cases first : p.step? i with
    | none => cases p.step? j <;> rfl
    | some a =>
      cases second : p.step? j with
      | none => rfl
      | some b =>
        have number : a.id = i := by simpa using List.find?_some first
        have number' : b.id = j := by simpa using List.find?_some second
        simp only [Option.bind_some, derive]
        rw [Derivation.matched_swap oneWay, number, number']
  · rfl

/-- The order in which two steps are selected for modus ponens or modus tollens does not matter. Either no step comes
out in both orders, or steps that differ in the order of what they cite, or there is no next line in both cases; and
two steps never match in both orders. -/
theorem apply_pair_comm (p : Proof) (rule : Rule)
    (matching : rule.kind ∈ [.modusPonens, .modusTollens]) (i j : StepId) (input : Option String) :
    (p.apply rule [i, j] input = .ok none ∧ p.apply rule [j, i] input = .ok none ∨
      (∃ s, p.apply rule [i, j] input = .ok (some s) ∧ s.dependencies = [i, j] ∧
        p.apply rule [j, i] input = .ok (some { s with dependencies := [j, i] })) ∨
      ∃ e, p.nextLine = .error e ∧ p.apply rule [i, j] input = .error e ∧
        p.apply rule [j, i] input = .error e) ∧
    ∀ (a b : Step) (t u : String),
      ¬(Derivation.detach? a b = some t ∧ Derivation.detach? b a = some u) ∧
      ¬(Derivation.refute? a b = some t ∧ Derivation.refute? b a = some u) := by
  constructor
  · have swap := deriveFrom_swap p matching i j input
    have again := deriveFrom_swap p matching j i input
    unfold apply
    cases derived : p.deriveFrom rule [i, j] input with
    | none =>
      rw [derived] at swap
      rw [swap]
      exact Or.inl ⟨rfl, rfl⟩
    | some d =>
      -- with the order changed twice the selection is as it was, and so it is what is cited
      rw [swap, derived] at again
      have cites : d.dependencies = [i, j] := congrArg Derivation.dependencies (Option.some.inj again)
      have next : p.lineFor d.placement = p.nextLine := by
        rw [placement_of_deriveFrom derived, placement_of_matching matching]
        rfl
      rw [swap, derived]
      cases line : p.nextLine with
      | error e =>
        refine Or.inr (Or.inr ⟨e, rfl, ?_, ?_⟩) <;> simp [stepOf, next, line, Except.map]
      | ok l =>
        refine Or.inr (Or.inl ?_)
        simp [stepOf, next, line, Except.map, cites]
  · intro a b t u
    constructor
    · rintro ⟨first, second⟩
      cases (Derivation.matchesOneWay_detach? a b t first).symm.trans second
    · rintro ⟨first, second⟩
      cases (Derivation.matchesOneWay_refute? a b t first).symm.trans second

theorem apply_pair_comm_of_implications :
    let implication : Step := ⟨.first, .first, "(p → q) → r", .premise, [], 0, false, false, none⟩
    let antecedent : Step :=
      ⟨⟨2, by decide⟩, ⟨[2], by decide, by decide⟩, "(P)->Q", .premise, [], 0, false, false, none⟩
    let p : Proof :=
      ⟨"r", [implication.formula, antecedent.formula], [implication, antecedent], 0, ⟨3, by decide⟩, false⟩
    ∃ s, p.apply ⟨.modusPonens, .basic, 2⟩ [implication.id, antecedent.id] none = .ok (some s) ∧
      s.formula = "r" ∧ s.dependencies = [implication.id, antecedent.id] ∧
      p.apply ⟨.modusPonens, .basic, 2⟩ [antecedent.id, implication.id] none =
        .ok (some { s with dependencies := [antecedent.id, implication.id] }) := by
  intro implication antecedent p
  have applied : p.apply ⟨.modusPonens, .basic, 2⟩ [implication.id, antecedent.id] none =
      .ok (some ⟨⟨3, by decide⟩, ⟨[3], by decide, by decide⟩, "r", .modusPonens,
        [implication.id, antecedent.id], 0, false, false, none⟩) := by cbv
  rcases (apply_pair_comm p ⟨.modusPonens, .basic, 2⟩ (by decide) implication.id antecedent.id none).1 with
    ⟨fails, _⟩ | ⟨s, found, cites, swapped⟩ | ⟨_, _, fails, _⟩
  · cases applied.symm.trans fails
  · refine ⟨s, found, ?_, cites, swapped⟩
    cases applied.symm.trans found
    rfl
  · cases applied.symm.trans fails

end Proof

end NaturalDeduction
