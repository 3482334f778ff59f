import NaturalDeduction.Proofs.Proof.Conclusions

set_option autoImplicit false
set_option relaxedAutoImplicit false

namespace NaturalDeduction

namespace Derivation

theorem refute?_eq_some {minor major : Step} {t : String} (h : refute? minor major = some t) :
    ∃ f g k, Formula.parse major.formula = .ok (.binary .implies f g) ∧
      Formula.parse minor.formula = .ok (.not k) ∧ t = "~(" ++ f.text ++ ")" := by
  obtain ⟨whole, read, h⟩ := Option.bind_eq_some_iff.1 h
  obtain ⟨negation, other, h⟩ := Option.bind_eq_some_iff.1 h
  obtain ⟨⟨f, g⟩, shape, h⟩ := Option.bind_eq_some_iff.1 h
  obtain ⟨k, denial, h⟩ := Option.bind_eq_some_iff.1 h
  obtain ⟨_, _, h⟩ := Option.bind_eq_some_iff.1 h
  rw [Formula.implication_eq_some shape] at read
  rw [Formula.negated_eq_some denial] at other
  exact ⟨f, g, k, read?_eq_some.1 read, read?_eq_some.1 other, (Option.some.inj h).symm⟩

private theorem exists_of_eitherOrder_refute? {a b : Step} {t : String}
    (h : eitherOrder a b refute? = some t) :
    ∃ f g k, t = "~(" ++ f.text ++ ")" ∧
      (Formula.parse a.formula = .ok (.not k) ∧
          Formula.parse b.formula = .ok (.binary .implies f g) ∨
        Formula.parse a.formula = .ok (.binary .implies f g) ∧
          Formula.parse b.formula = .ok (.not k)) := by
  rcases Option.or_eq_some_iff.1 h with first | ⟨_, second⟩
  · obtain ⟨f, g, k, major, minor, rfl⟩ := refute?_eq_some first
    exact ⟨f, g, k, rfl, Or.inl ⟨minor, major⟩⟩
  · obtain ⟨f, g, k, major, minor, rfl⟩ := refute?_eq_some second
    exact ⟨f, g, k, rfl, Or.inr ⟨major, minor⟩⟩

private theorem readsAs_joined (op : Connective) {s t : String} {f g : Formula}
    (first : Formula.parse s = .ok f) (second : Formula.parse t = .ok g) :
    Formula.ReadsAs (.binary op f g)
      (parenthesized s ++ Style.canonical.lexeme (.connective op) ++ parenthesized t) := by
  obtain ⟨_, spelledA, _, _⟩ := Formula.spelledBy_of_parse first
  obtain ⟨_, spelledB, _, _⟩ := Formula.spelledBy_of_parse second
  obtain ⟨_, spelled⟩ := spelledA.joined op spelledB
  exact Formula.readsAs_of_spelledBy spelled

private theorem readsAs_denied {s : String} {f g : Formula}
    (parsed : Formula.parse s = .ok (.binary .implies f g)) :
    Formula.ReadsAs (.not f) ("~(" ++ f.text ++ ")") := by
  have named := Formula.wellNamed_left (Formula.wellNamed_of_parse parsed)
  obtain ⟨_, spelled⟩ := SpelledBy.denied (.text named)
  exact Formula.readsAs_of_spelledBy spelled

end Derivation

namespace Proof

/-- `Introduces p input kind selected f` says that `f` is the formula for which a rule of this kind is named, if it
is applied in the proof `p` to the selected steps and the input. -/
inductive Introduces (p : Proof) (input : Option String) :
    RuleKind → List StepId → Formula → Prop
  | conjunction {i j : StepId} {a b : Step} {f g : Formula} (first : p.step? i = some a)
      (second : p.step? j = some b) (left : Formula.parse a.formula = .ok f)
      (right : Formula.parse b.formula = .ok g) :
      Introduces p input .andIntro [i, j] (.binary .and f g)
  | disjunctionLeft {i : StepId} {a : Step} {t : String} {f g : Formula}
      (known : p.step? i = some a) (entered : input = some t)
      (left : Formula.parse a.formula = .ok f) (right : Formula.parse t = .ok g) :
      Introduces p input .orIntroLeft [i] (.binary .or f g)
  | disjunctionRight {i : StepId} {a : Step} {t : String} {f g : Formula}
      (known : p.step? i = some a) (entered : input = some t)
      (right : Formula.parse a.formula = .ok f) (left : Formula.parse t = .ok g) :
      Introduces p input .orIntroRight [i] (.binary .or g f)
  | denial {i j : StepId} {a b : Step} {f g : Formula} (first : p.step? i = some a)
      (second : p.step? j = some b)
      (implication : Formula.parse a.formula = .ok (.binary .implies f g) ∨
        Formula.parse b.formula = .ok (.binary .implies f g)) :
      Introduces p input .modusTollens [i, j] (.not f)
  | implication {selected : List StepId} {opening last : Step} {f g : Formula}
      (opened : p.openAssumption? = some opening) (final : p.last? = some last)
      (left : Formula.parse opening.formula = .ok f) (right : Formula.parse last.formula = .ok g) :
      Introduces p input .impliesIntro selected (.binary .implies f g)

variable {p : Proof} {selected : List StepId} {input : Option String} {cited : List Step}

private theorem cited_of_pair {i j : StepId} {a b : Step} (first : p.step? i = some a)
    (second : p.step? j = some b) (found : [i, j].mapM p.step? = some cited) : cited = [a, b] := by
  have both : [i, j].mapM p.step? = some [a, b] := by simp [first, second]
  exact Option.some.inj (found.symm.trans both)

private theorem cited_of_single {i : StepId} {a : Step} (known : p.step? i = some a)
    (found : [i].mapM p.step? = some cited) : cited = [a] := by
  have one : [i].mapM p.step? = some [a] := by simp [known]
  exact Option.some.inj (found.symm.trans one)

theorem selected_of_pair {a b : Step} (found : selected.mapM p.step? = some [a, b]) :
    ∃ i j, selected = [i, j] ∧ p.step? i = some a ∧ p.step? j = some b := by
  obtain ⟨i, _, first, more, rfl⟩ := List.forall₂_cons_right_iff.1 (mapM_eq_some.1 found)
  obtain ⟨j, _, second, last, rfl⟩ := List.forall₂_cons_right_iff.1 more
  cases last
  exact ⟨i, j, rfl, first, second⟩

theorem selected_of_single {a : Step} (found : selected.mapM p.step? = some [a]) :
    ∃ i, selected = [i] ∧ p.step? i = some a := by
  obtain ⟨i, _, known, last, rfl⟩ := List.forall₂_cons_right_iff.1 (mapM_eq_some.1 found)
  cases last
  exact ⟨i, rfl, known⟩

private theorem readsAs_of_derive {kind : RuleKind} {d : Derivation} {f : Formula}
    (introduces : p.Introduces input kind selected f) (found : selected.mapM p.step? = some cited)
    (derived : p.derive kind cited input = some d) : Formula.ReadsAs f d.formula := by
  cases introduces with
  | conjunction first second left right =>
    obtain ⟨_, _, _, _, pair, _, _, rfl⟩ := Derivation.conjunction_eq_some derived
    rw [cited_of_pair first second found] at pair
    cases pair
    exact Derivation.readsAs_joined .and left right
  | disjunctionLeft known entered left right =>
    simp only [derive] at derived
    obtain ⟨_, _, _, _, single, given, _, _, rfl⟩ := Derivation.disjunction_eq_some derived
    rw [cited_of_single known found] at single
    cases single
    cases entered.symm.trans given
    exact Derivation.readsAs_joined .or left right
  | disjunctionRight known entered right left =>
    simp only [derive] at derived
    obtain ⟨_, _, _, _, single, given, _, _, rfl⟩ := Derivation.disjunction_eq_some derived
    rw [cited_of_single known found] at single
    cases single
    cases entered.symm.trans given
    exact Derivation.readsAs_joined .or left right
  | denial first second implication =>
    obtain ⟨_, _, _, pair, either, rfl⟩ := Derivation.matched_eq_some derived
    rw [cited_of_pair first second found] at pair
    cases pair
    obtain ⟨_, _, _, rfl, shapes⟩ := Derivation.exists_of_eitherOrder_refute? either
    -- the step that is an implication is not the one that is a negation, so it is the one meant
    rcases shapes with ⟨minor, major⟩ | ⟨major, minor⟩ <;> rcases implication with here | here
    · cases minor.symm.trans here
    · cases major.symm.trans here
      exact Derivation.readsAs_denied major
    · cases major.symm.trans here
      exact Derivation.readsAs_denied major
    · cases minor.symm.trans here
  | implication opened final left right =>
    obtain ⟨_, _, opened', final', _, _, formula, _⟩ := Derivation.discharge_eq_some derived
    cases opened.symm.trans opened'
    cases final.symm.trans final'
    rw [formula]
    exact Derivation.readsAs_joined .implies left right

private theorem exists_introduces {kind : RuleKind} {d : Derivation}
    (builds : kind ∈ [.modusTollens, .andIntro, .orIntroLeft, .orIntroRight])
    (found : selected.mapM p.step? = some cited) (derived : p.derive kind cited input = some d) :
    ∃ f, p.Introduces input kind selected f := by
  simp only [List.mem_cons, List.not_mem_nil, or_false] at builds
  rcases builds with rfl | rfl | rfl | rfl
  · obtain ⟨a, b, _, rfl, either, _⟩ := Derivation.matched_eq_some derived
    obtain ⟨i, j, rfl, first, second⟩ := selected_of_pair found
    obtain ⟨_, _, _, _, ⟨_, major⟩ | ⟨major, _⟩⟩ := Derivation.exists_of_eitherOrder_refute? either
    · exact ⟨_, .denial first second (Or.inr major)⟩
    · exact ⟨_, .denial first second (Or.inl major)⟩
  · obtain ⟨a, b, f, g, rfl, left, right, _⟩ := Derivation.conjunction_eq_some derived
    obtain ⟨i, j, rfl, first, second⟩ := selected_of_pair found
    exact ⟨_, .conjunction first second (Derivation.read?_eq_some.1 left)
      (Derivation.read?_eq_some.1 right)⟩
  · simp only [derive] at derived
    obtain ⟨a, f, t, g, rfl, entered, left, right, _⟩ := Derivation.disjunction_eq_some derived
    obtain ⟨i, rfl, known⟩ := selected_of_single found
    exact ⟨_, .disjunctionLeft known entered (Derivation.read?_eq_some.1 left)
      (Derivation.read?_eq_some.1 right)⟩
  · simp only [derive] at derived
    obtain ⟨a, f, t, g, rfl, entered, right, left, _⟩ := Derivation.disjunction_eq_some derived
    obtain ⟨i, rfl, known⟩ := selected_of_single found
    exact ⟨_, .disjunctionRight known entered (Derivation.read?_eq_some.1 right)
      (Derivation.read?_eq_some.1 left)⟩

/-- Introduction rules build the formula that they are named for. What a rule gives is read as exactly this
formula or is too deep to be read, and a rule that joins or denies cited formulas gives something only where there
is such a formula. -/
theorem formula_of_introduction {rule : Rule} {s : Step}
    (applied : p.apply rule selected input = .ok (some s)) :
    (∀ f, p.Introduces input rule.kind selected f →
      Formula.parse s.formula = .ok f ∨
        ∃ offset, Formula.parse s.formula = .error (.grammatical (.tooDeep offset))) ∧
    (rule.kind ∈ [.modusTollens, .andIntro, .orIntroLeft, .orIntroRight] →
      ∃ f, p.Introduces input rule.kind selected f) := by
  obtain ⟨cited, d, found, derived, records⟩ := apply_eq_some applied
  rw [records.formula_eq]
  exact ⟨fun f introduces => readsAs_of_derive introduces found derived,
    fun builds => exists_introduces builds found derived⟩

theorem formula_of_introduction_of_denied_disjunction :
    let premise : Step := ⟨.first, .first, "(p ∨ r) → q ", .premise, [], 0, false, false, none⟩
    let denial : Step :=
      ⟨⟨2, by decide⟩, ⟨[2], by decide, by decide⟩, "!((q))", .premise, [], 0, false, false, none⟩
    let p : Proof :=
      ⟨"~(p | r)", [premise.formula, denial.formula], [premise, denial], 0, ⟨3, by decide⟩, false⟩
    ∃ s, p.apply ⟨.modusTollens, .basic, 2⟩ [premise.id, denial.id] none = .ok (some s) ∧
      (Formula.parse s.formula = .ok (.not (.binary .or (.var "p") (.var "r"))) ∨
        ∃ offset, Formula.parse s.formula = .error (.grammatical (.tooDeep offset))) := by
  intro premise denial p
  have applied : p.apply ⟨.modusTollens, .basic, 2⟩ [premise.id, denial.id] none =
      .ok (some ⟨⟨3, by decide⟩, ⟨[3], by decide, by decide⟩, "~(p | r)", .modusTollens,
        [premise.id, denial.id], 0, false, false, none⟩) := by cbv
  have implication : Formula.parse premise.formula =
      .ok (.binary .implies (.binary .or (.var "p") (.var "r")) (.var "q")) := by cbv
  exact ⟨_, applied,
    (formula_of_introduction applied).1 _ (.denial rfl rfl (Or.inl implication))⟩

end Proof

end NaturalDeduction
