import NaturalDeduction.Proofs.Proof.Eliminations
import NaturalDeduction.Proofs.Proof.LineBounds

set_option autoImplicit false
set_option relaxedAutoImplicit false

namespace NaturalDeduction

private theorem Rule.citations_of_modusPonens {rule : Rule} (listed : rule ∈ Rule.table)
    (ponens : rule.kind = .modusPonens) : rule.citations = 2 := by
  have all : ∀ rule ∈ Rule.table, rule.kind = .modusPonens → rule.citations = 2 := by decide
  exact all rule listed ponens

private theorem Comparison.sameFormula_antecedent_eq_false {s : String} {f g h : Formula}
    (parsed : Formula.parse s = .ok (.binary .implies (.binary .implies f g) h)) (named : f.WellNamed) :
    sameFormula s f.text = false := by
  by_contra same
  rw [Bool.not_eq_false] at same
  have lengths := length_inOrder_of_sameFormula parsed named same
  simp only [Formula.inOrder, List.length_append, List.length_cons] at lengths
  omega

namespace Proof

variable {goal : String} {premises : List String} {p : Proof} {rule : Rule} {a b : Step}
  {selected : List StepId} {input : Option String} {f g : Formula}

private theorem Reachable.apply_of_eliminates (run : Reachable goal premises p)
    (eliminates : p.Eliminates rule.kind selected f) (count : selected.length = rule.citations) :
    ∃ s, p.apply rule selected input = .ok (some s) ∧ Formula.parse s.formula = .ok f := by
  obtain ⟨cited, d, found, derived, parsed⟩ := derive_of_eliminates eliminates input
  obtain ⟨s, applied, same⟩ := run.exists_apply (deriveFrom_eq_some.2 ⟨count, cited, found, derived⟩)
  exact ⟨s, applied, by rw [same, parsed]⟩

private theorem sameFormula_of_eliminates (numbered : p.Numbered) (first : a ∈ p.steps) (second : b ∈ p.steps)
    (minor : Formula.parse a.formula = .ok f)
    (major : Formula.parse b.formula = .ok (.binary .implies f g))
    (order : selected = [a.id, b.id] ∨ selected = [b.id, a.id]) {h : Formula}
    (eliminates : p.Eliminates .modusPonens selected h) :
    Comparison.sameFormula a.formula f.text = true := by
  have known := numbered.step?_eq first
  have known' := numbered.step?_eq second
  cases eliminates with
  | @consequent i j taken whole f' _ pair implication antecedent =>
    have steps : taken = a ∧ whole = b ∨ taken = b ∧ whole = a := by
      rcases order with eq | eq <;> cases eq <;> rcases pair with ⟨one, two⟩ | ⟨one, two⟩
      · exact Or.inl ⟨Option.some.inj (one.symm.trans known), Option.some.inj (two.symm.trans known')⟩
      · exact Or.inr ⟨Option.some.inj (two.symm.trans known'), Option.some.inj (one.symm.trans known)⟩
      · exact Or.inr ⟨Option.some.inj (one.symm.trans known'), Option.some.inj (two.symm.trans known)⟩
      · exact Or.inl ⟨Option.some.inj (two.symm.trans known), Option.some.inj (one.symm.trans known')⟩
    rcases steps with ⟨rfl, rfl⟩ | ⟨rfl, rfl⟩
    · cases major.symm.trans implication
      exact antecedent
    · -- the formula would be an implication from the implication that it is the antecedent of
      cases minor.symm.trans implication
      have named := Formula.wellNamed_left (Formula.wellNamed_of_parse minor)
      rw [Comparison.sameFormula_antecedent_eq_false major named] at antecedent
      cases antecedent

/-- Modus ponens applies to a formula and an implication from it, in either order, just if the text of the formula is
spelled as it is printed, and then gives the consequent. -/
theorem apply_modusPonens_iff_plainlySpelled (run : Reachable goal premises p)
    (listed : rule ∈ Rule.table) (ponens : rule.kind = .modusPonens) (first : a ∈ p.steps)
    (second : b ∈ p.steps) (minor : Formula.parse a.formula = .ok f)
    (major : Formula.parse b.formula = .ok (.binary .implies f g))
    (order : selected = [a.id, b.id] ∨ selected = [b.id, a.id]) (input : Option String) :
    (PlainlySpelled a.formula →
      ∃ s, p.apply rule selected input = .ok (some s) ∧ Formula.parse s.formula = .ok g) ∧
    (¬PlainlySpelled a.formula → p.apply rule selected input = .ok none) := by
  have numbered := run.consistent.numbered
  rw [← Comparison.sameFormula_text_of_parse minor]
  constructor
  · intro same
    have eliminates : p.Eliminates .modusPonens selected g := by
      have known := numbered.step?_eq first
      have known' := numbered.step?_eq second
      rcases order with rfl | rfl
      · exact .consequent (Or.inl ⟨known, known'⟩) major same
      · exact .consequent (Or.inr ⟨known', known⟩) major same
    have count : selected.length = rule.citations := by
      rw [Rule.citations_of_modusPonens listed ponens]
      rcases order with rfl | rfl <;> rfl
    rw [← ponens] at eliminates
    exact run.apply_of_eliminates eliminates count
  · intro other
    unfold apply
    cases derived : p.deriveFrom rule selected input with
    | none => rfl
    | some d =>
      obtain ⟨_, cited, found, derived⟩ := deriveFrom_eq_some.1 derived
      rw [ponens] at derived
      obtain ⟨h, eliminates, _⟩ := eliminates_of_derive (by simp) found derived
      exact absurd (sameFormula_of_eliminates numbered first second minor major order eliminates) other

/-- White space, parentheses and the spelling of the implication do not matter. -/
theorem apply_modusPonens_of_respaced_conjunction :
    ∃ p a b s, start "r" ["((p)^ q)", "p && q → r"] = .ok p ∧ p.steps = [a, b] ∧
      p.apply ⟨.modusPonens, .basic, 2⟩ [b.id, a.id] none = .ok (some s) ∧
      Formula.parse s.formula = .ok (.var "r") := by
  obtain ⟨p, begun⟩ : ∃ p, start "r" ["((p)^ q)", "p && q → r"] = .ok p := ⟨_, rfl⟩
  obtain ⟨a, b, steps, first, second⟩ :
      ∃ a b, p.steps = [a, b] ∧ a.formula = "((p)^ q)" ∧ b.formula = "p && q → r" := by
    cases begun
    exact ⟨_, _, rfl, rfl, rfl⟩
  have minor : Formula.parse a.formula = .ok (.binary .and (.var "p") (.var "q")) := by
    rw [first]
    cbv
  have major : Formula.parse b.formula =
      .ok (.binary .implies (.binary .and (.var "p") (.var "q")) (.var "r")) := by
    rw [second]
    cbv
  have plain : PlainlySpelled a.formula := by
    rw [first]
    exact ⟨_, by cbv, by decide⟩
  have listed : ⟨.modusPonens, .basic, 2⟩ ∈ Rule.table := by decide
  obtain ⟨s, applied, parsed⟩ := (apply_modusPonens_iff_plainlySpelled (.start begun) listed rfl
    (by simp [steps]) (by simp [steps]) minor major (Or.inr rfl) none).1 plain
  exact ⟨p, a, b, s, begun, steps, applied, parsed⟩

/-- Two steps parse to a formula and to an implication from it, and modus ponens does not apply to them. -/
theorem modusPonens_misses_spelling :
    ∃ p a b, Derivable "r" ["p ∧ q", "p && q → r"] p ∧ p.steps = [a, b] ∧
      ⟨.modusPonens, .basic, 2⟩ ∈ Rule.table ∧
      Formula.parse a.formula = .ok (.binary .and (.var "p") (.var "q")) ∧
      Formula.parse b.formula =
        .ok (.binary .implies (.binary .and (.var "p") (.var "q")) (.var "r")) ∧
      p.apply ⟨.modusPonens, .basic, 2⟩ [a.id, b.id] none = .ok none ∧
      p.apply ⟨.modusPonens, .basic, 2⟩ [b.id, a.id] none = .ok none :=
  ⟨_, _, _, .start rfl, rfl, by decide, by cbv, by cbv, by cbv, by cbv⟩

end Proof

end NaturalDeduction
