import NaturalDeduction.Proofs.Proof.Conclusions
import NaturalDeduction.Proofs.Proof.LineBounds

set_option autoImplicit false
set_option relaxedAutoImplicit false

namespace NaturalDeduction

variable {s : String} {f : Formula}

namespace Proof

variable {goal : String} {premises : List String} {p : Proof} {rule : Rule}

/-- The law of excluded middle applies without any selected steps to whatever spells a formula. What it gives is read
as the disjunction of the formula and its negation or is too deep to be read, so that it is true under every valuation
wherever it is read; and the operand that the entered text gives is read as the same formula or is too deep, and
gives itself. -/
theorem apply_excludedMiddle_of_parse (run : Reachable goal premises p) (listed : rule ∈ Rule.table)
    (lem : rule.kind = .excludedMiddle) (parsed : Formula.parse s = .ok f) :
    (∃ t, p.apply rule [] (some s) = .ok (some t) ∧
      Formula.ReadsAs (.binary .or f (.not f)) t.formula ∧
      ∀ g, Formula.parse t.formula = .ok g → ∀ v, g.eval v = true) ∧
    Formula.ReadsAs f (Operand.ofText s) ∧
    Operand.ofText (Operand.ofText s) = Operand.ofText s := by
  obtain ⟨_, spelled, _, _⟩ := Formula.spelledBy_of_parse parsed
  refine ⟨?_, ?_, Operand.ofText_ofText spelled⟩
  · have derived : p.deriveFrom rule [] (some s) =
        some (Derivation.continued (Operand.ofText s ++ " | ~" ++ Operand.ofText s) []) := by
      refine deriveFrom_eq_some.2 ⟨(Rule.citations_eq_zero listed (Or.inr lem)).symm, [], rfl, ?_⟩
      rw [lem]
      exact Derivation.excludedMiddle_of_parse parsed
    obtain ⟨t, applied, formula⟩ := run.exists_apply derived
    obtain ⟨_, either⟩ := spelled.excludedMiddle
    change t.formula = Operand.ofText s ++ " | ~" ++ Operand.ofText s at formula
    rw [← formula] at either
    refine ⟨t, applied, Formula.readsAs_of_spelledBy either, fun g read v => ?_⟩
    rw [Formula.eq_of_parse either read]
    simp [Formula.eval, Connective.eval]
  · obtain ⟨_, operand⟩ := Operand.spelledBy_ofText spelled
    exact Formula.readsAs_of_spelledBy operand

/-- A text that begins and ends with a parenthesis and is not in one pair of them is put into parentheses. -/
theorem apply_excludedMiddle_of_two_parts :
    let f : Formula := .binary .and (.var "p") (.not (.var "q"))
    ∃ t, nestedAssumptions.apply ⟨.excludedMiddle, .basic, 0⟩ [] (some " (p) && (¬q)") = .ok (some t) ∧
      Formula.ReadsAs (.binary .or f (.not f)) t.formula ∧
      Operand.ofText " (p) && (¬q)" = "((p) && (¬q))" ∧
      Operand.ofText (Operand.ofText " (p) && (¬q)") = Operand.ofText " (p) && (¬q)" := by
  intro f
  have parsed : Formula.parse " (p) && (¬q)" = .ok f := by cbv
  have listed : ⟨.excludedMiddle, .basic, 0⟩ ∈ Rule.table := by decide
  obtain ⟨⟨t, applied, reads, _⟩, _, same⟩ :=
    apply_excludedMiddle_of_parse derivable_nestedAssumptions.reachable listed rfl parsed
  exact ⟨t, applied, reads, by cbv, same⟩

end Proof

end NaturalDeduction
