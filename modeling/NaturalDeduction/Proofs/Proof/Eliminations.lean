import NaturalDeduction.Proofs.Proof.Matching

set_option autoImplicit false
set_option relaxedAutoImplicit false

namespace NaturalDeduction

namespace Formula

/-- A formula that can be printed and parsed back. -/
structure Fits (f : Formula) : Prop where
  named : f.WellNamed
  nests : f.nesting ≤ depthLimit
  high : f.height ≤ depthLimit

variable {f g : Formula} {op : Connective} {s : String}

private theorem fits_of_parse (parsed : parse s = .ok f) : f.Fits := by
  obtain ⟨n, spelled, nests, high⟩ := spelledBy_of_parse parsed
  obtain ⟨named, least⟩ := wellNamed_of_spelledBy spelled
  exact ⟨named, Nat.le_trans least nests, high⟩

private theorem nesting_le_nestingAt (required : Level) (f : Formula) : f.nesting ≤ f.nestingAt required := by
  unfold nestingAt
  split
  · exact Nat.le_succ _
  · exact Nat.le_refl _

namespace Fits

private theorem parse_text (h : f.Fits) : parse f.text = .ok f :=
  parse_of_spelledBy (.text h.named) h.nests h.high

private theorem inner (h : (not f).Fits) : f.Fits where
  named := wellNamed_not h.named
  nests :=
    calc
      f.nesting ≤ f.nestingAt .negation := f.nesting_le_nestingAt _
      _ ≤ (not f).nesting := Nat.le_succ _
      _ ≤ depthLimit := h.nests
  high := Nat.le_trans (Nat.le_succ _) h.high

private theorem left (h : (binary op f g).Fits) : f.Fits where
  named := wellNamed_left h.named
  nests := by
    have place := f.nesting_le_nestingAt (.left op)
    have whole := h.nests
    rw [nesting_binary] at whole
    omega
  high := by
    have whole := h.high
    rw [height] at whole
    omega

private theorem right (h : (binary op f g).Fits) : g.Fits where
  named := wellNamed_right h.named
  nests := by
    have place := g.nesting_le_nestingAt (.right op)
    have whole := h.nests
    rw [nesting_binary] at whole
    split at whole <;> omega
  high := by
    have whole := h.high
    rw [height] at whole
    omega

end Fits

end Formula

namespace Derivation

private theorem part_singleton {select : Formula → Option Formula} {a : Step} {f g : Formula}
    (whole : read? a.formula = some f) (selected : select f = some g) :
    part select [a] = some (continued g.text [a]) := by
  simp [part, whole, selected]

end Derivation

namespace Proof

/-- `Eliminates p kind selected f` says that `f` is the formula which a rule of this kind is named to take out of the
selected steps of the proof `p`. Modus ponens takes the consequent of the step that is an implication from the other
one, and the case split repeats the disjunction. -/
inductive Eliminates (p : Proof) : RuleKind → List StepId → Formula → Prop
  | consequent {i j : StepId} {minor major : Step} {f g : Formula}
      (selected : p.step? i = some minor ∧ p.step? j = some major ∨
        p.step? i = some major ∧ p.step? j = some minor)
      (implication : Formula.parse major.formula = .ok (.binary .implies f g))
      (antecedent : Comparison.sameFormula minor.formula f.text = true) :
      Eliminates p .modusPonens [i, j] g
  | left {i : StepId} {a : Step} {f g : Formula} (known : p.step? i = some a)
      (conjunction : Formula.parse a.formula = .ok (.binary .and f g)) :
      Eliminates p .andElimLeft [i] f
  | right {i : StepId} {a : Step} {f g : Formula} (known : p.step? i = some a)
      (conjunction : Formula.parse a.formula = .ok (.binary .and f g)) :
      Eliminates p .andElimRight [i] g
  | doubleNegation {i : StepId} {a : Step} {f : Formula} (known : p.step? i = some a)
      (denial : Formula.parse a.formula = .ok (.not (.not f))) :
      Eliminates p .doubleNegation [i] f
  | disjunction {i : StepId} {a : Step} {f g : Formula} (known : p.step? i = some a)
      (whole : Formula.parse a.formula = .ok (.binary .or f g)) :
      Eliminates p .orElim [i] (.binary .or f g)

variable {p : Proof} {kind : RuleKind} {rule : Rule} {selected : List StepId} {input : Option String}
  {cited : List Step} {d : Derivation} {s : Step} {f g : Formula}

private theorem exists_of_part {select : Formula → Option Formula}
    (found : selected.mapM p.step? = some cited) (h : Derivation.part select cited = some d) :
    ∃ i a f g, selected = [i] ∧ p.step? i = some a ∧ Formula.parse a.formula = .ok f ∧
      select f = some g ∧ d.formula = g.text := by
  obtain ⟨a, f, g, rfl, whole, part, rfl⟩ := Derivation.part_eq_some h
  obtain ⟨i, rfl, known⟩ := selected_of_single found
  exact ⟨i, a, f, g, rfl, known, Derivation.read?_eq_some.1 whole, part, rfl⟩

/-- What a rule takes out is a formula that there is to be taken out, and is read as such. -/
theorem eliminates_of_derive
    (eliminates : kind ∈ [.modusPonens, .andElimLeft, .andElimRight, .doubleNegation, .orElim])
    (found : selected.mapM p.step? = some cited) (derived : p.derive kind cited input = some d) :
    ∃ f, p.Eliminates kind selected f ∧ Formula.parse d.formula = .ok f := by
  simp only [List.mem_cons, List.not_mem_nil, or_false] at eliminates
  rcases eliminates with rfl | rfl | rfl | rfl | rfl
  · obtain ⟨a, b, t, rfl, either, rfl⟩ := Derivation.matched_eq_some derived
    obtain ⟨i, j, rfl, first, second⟩ := selected_of_pair found
    rcases Option.or_eq_some_iff.1 either with detaches | ⟨_, detaches⟩ <;>
      obtain ⟨f, g, parsed, same, rfl⟩ := Derivation.detach?_eq_some.1 detaches
    · exact ⟨g, .consequent (Or.inl ⟨first, second⟩) parsed same,
        (Formula.fits_of_parse parsed).right.parse_text⟩
    · exact ⟨g, .consequent (Or.inr ⟨first, second⟩) parsed same,
        (Formula.fits_of_parse parsed).right.parse_text⟩
  · obtain ⟨i, a, f, g, rfl, known, parsed, part, same⟩ := exists_of_part found derived
    obtain ⟨⟨g, h⟩, shape, rfl⟩ := Option.map_eq_some_iff.1 part
    rw [Formula.conjuncts_eq_some shape] at parsed
    rw [same]
    exact ⟨g, .left known parsed, (Formula.fits_of_parse parsed).left.parse_text⟩
  · obtain ⟨i, a, f, g, rfl, known, parsed, part, same⟩ := exists_of_part found derived
    obtain ⟨⟨h, g⟩, shape, rfl⟩ := Option.map_eq_some_iff.1 part
    rw [Formula.conjuncts_eq_some shape] at parsed
    rw [same]
    exact ⟨g, .right known parsed, (Formula.fits_of_parse parsed).right.parse_text⟩
  · obtain ⟨i, a, f, g, rfl, known, parsed, part, same⟩ := exists_of_part found derived
    rw [Formula.doubleNegated_eq_some part] at parsed
    rw [same]
    exact ⟨g, .doubleNegation known parsed, (Formula.fits_of_parse parsed).inner.inner.parse_text⟩
  · obtain ⟨a, f, ⟨g, h⟩, rfl, whole, apart, rfl⟩ := Derivation.caseSplit_eq_some derived
    obtain ⟨i, rfl, known⟩ := selected_of_single found
    rw [Formula.disjuncts_eq_some apart] at whole
    have parsed := Derivation.read?_eq_some.1 whole
    exact ⟨_, .disjunction known parsed, parsed⟩

/-- A rule takes out what there is to be taken out, whatever the input. -/
theorem derive_of_eliminates (h : p.Eliminates kind selected f) (input : Option String) :
    ∃ cited d, selected.mapM p.step? = some cited ∧ p.derive kind cited input = some d ∧
      Formula.parse d.formula = .ok f := by
  cases h with
  | @consequent i j minor major g _ order implication antecedent =>
    have detaches := Derivation.detach?_eq_some.2 ⟨_, _, implication, antecedent, rfl⟩
    have either : Derivation.eitherOrder minor major Derivation.detach? = some f.text := by
      rw [Derivation.eitherOrder, detaches, Option.some_or]
    have parsed := (Formula.fits_of_parse implication).right.parse_text
    rcases order with ⟨first, second⟩ | ⟨first, second⟩
    · refine ⟨[minor, major], .continued f.text [minor, major], by simp [first, second], ?_, parsed⟩
      simp [derive, Derivation.matched, either]
    · rw [← Derivation.eitherOrder_comm Derivation.matchesOneWay_detach?] at either
      refine ⟨[major, minor], .continued f.text [major, minor], by simp [first, second], ?_, parsed⟩
      simp [derive, Derivation.matched, either]
  | @left i a _ g known conjunction =>
    refine ⟨[a], .continued f.text [a], by simp [known],
      Derivation.part_singleton (Derivation.read?_eq_some.2 conjunction) rfl,
      (Formula.fits_of_parse conjunction).left.parse_text⟩
  | @right i a _ g known conjunction =>
    refine ⟨[a], .continued f.text [a], by simp [known],
      Derivation.part_singleton (Derivation.read?_eq_some.2 conjunction) rfl,
      (Formula.fits_of_parse conjunction).right.parse_text⟩
  | @doubleNegation i a _ known denial =>
    refine ⟨[a], .continued f.text [a], by simp [known],
      Derivation.part_singleton (Derivation.read?_eq_some.2 denial) rfl,
      (Formula.fits_of_parse denial).inner.inner.parse_text⟩
  | @disjunction i a f g known whole =>
    refine ⟨[a], { Derivation.continued a.formula [a] with cases := some ⟨f.text, g.text⟩ },
      by simp [known], ?_, whole⟩
    simp [derive, Derivation.caseSplit, Derivation.read?_eq_some.2 whole, Formula.disjuncts]

private theorem Eliminates.unique (h : p.Eliminates kind selected f) (h' : p.Eliminates kind selected g) :
    f = g := by
  obtain ⟨cited, d, found, derived, parsed⟩ := derive_of_eliminates h none
  obtain ⟨cited', d', found', derived', parsed'⟩ := derive_of_eliminates h' none
  cases found.symm.trans found'
  cases derived.symm.trans derived'
  exact Except.ok.inj (parsed.symm.trans parsed')

/-- Elimination rules always give a formula that can be cited. What such a rule gives is read as the formula that it
is named to take out, of which there is no other one, and the cases of a disjunction are read as its sides. -/
theorem formula_of_elimination
    (eliminates : rule.kind ∈ [.modusPonens, .andElimLeft, .andElimRight, .doubleNegation, .orElim])
    (applied : p.apply rule selected input = .ok (some s)) :
    ∃ f, p.Eliminates rule.kind selected f ∧ Formula.parse s.formula = .ok f ∧
      (∀ g, p.Eliminates rule.kind selected g → g = f) ∧
      (rule.kind = .orElim → ∃ g h sides, f = .binary .or g h ∧ s.cases = some sides ∧
        Formula.parse sides.left = .ok g ∧ Formula.parse sides.right = .ok h) := by
  obtain ⟨cited, d, _, found, derived, written⟩ := derive_of_apply applied
  obtain ⟨f, takes, parsed⟩ := eliminates_of_derive eliminates found derived
  obtain ⟨line, _, rfl⟩ := Except.exists_of_map_eq_ok written
  refine ⟨f, takes, parsed, fun g other => other.unique takes, fun split => ?_⟩
  rw [split] at derived
  obtain ⟨a, whole, ⟨g, h⟩, _, read, apart, rfl⟩ := Derivation.caseSplit_eq_some derived
  rw [Formula.disjuncts_eq_some apart] at read
  have disjunction := Derivation.read?_eq_some.1 read
  have fits := Formula.fits_of_parse disjunction
  cases parsed.symm.trans disjunction
  exact ⟨g, h, _, rfl, rfl, fits.left.parse_text, fits.right.parse_text⟩

theorem formula_of_elimination_of_case_split :
    let premise : Step := ⟨.first, .first, "(p→q)||!r", .premise, [], 0, false, false, none⟩
    let p : Proof := ⟨"q", [premise.formula], [premise], 0, ⟨2, by decide⟩, false⟩
    ∃ s f g h, p.apply ⟨.orElim, .elimination, 1⟩ [premise.id] none = .ok (some s) ∧
      Formula.parse s.formula = .ok f ∧ f = .binary .or g h ∧ s.cases = some ⟨"p -> q", "~r"⟩ ∧
      Formula.parse "p -> q" = .ok g ∧ Formula.parse "~r" = .ok h := by
  intro premise p
  have applied : p.apply ⟨.orElim, .elimination, 1⟩ [premise.id] none =
      .ok (some ⟨⟨2, by decide⟩, ⟨[2], by decide, by decide⟩, "(p→q)||!r", .orElim, [premise.id], 0,
        false, false, some ⟨"p -> q", "~r"⟩⟩) := by cbv
  obtain ⟨f, _, parsed, _, split⟩ := formula_of_elimination (by decide) applied
  obtain ⟨g, h, sides, shape, cases, left, right⟩ := split rfl
  cases cases
  exact ⟨_, f, g, h, applied, parsed, shape, rfl, left, right⟩

end Proof

end NaturalDeduction
