import NaturalDeduction.Formula.Valuation
import NaturalDeduction.Proofs.Formula.Operand
import NaturalDeduction.Proofs.Formula.RoundTrip
import NaturalDeduction.Proofs.Proof.Extension

set_option autoImplicit false
set_option relaxedAutoImplicit false

namespace NaturalDeduction

namespace SpelledBy

variable {f g : Formula} {m n : Nat} {a b : String}

theorem joined (op : Connective) (first : SpelledBy f m a) (second : SpelledBy g n b) :
    ∃ k, SpelledBy (.binary op f g) k
      (Derivation.parenthesized a ++ Style.canonical.lexeme (.connective op) ++
        Derivation.parenthesized b) := by
  obtain ⟨ts, lexesA, spellsA⟩ := first
  obtain ⟨us, lexesB, spellsB⟩ := second
  have right := lexesB.trimChars.parens .nil
  have readable : Style.canonical.script ≠ .latex := by decide
  obtain ⟨t, kind, middle⟩ := Formula.lexes_connective readable op right fun d first => by
    cases first
    decide
  have whole := lexesA.trimChars.parens middle
  refine ⟨_, _, ?_, (Spells.binary (spellsA.parens _) kind (spellsB.parens _)).whole⟩
  simpa [Derivation.parenthesized, Text.trim] using whole

theorem denied (h : SpelledBy f n a) : ∃ k, SpelledBy (.not f) k ("~(" ++ a ++ ")") := by
  obtain ⟨ts, lexes, spells⟩ := h
  have inner := lexes.parens .nil
  have readable : Script.ascii ≠ .latex := by decide
  obtain ⟨t, kind, whole⟩ := inner.negation readable
  refine ⟨_, _, ?_, (Spells.not kind (spells.parens _)).whole⟩
  simpa [Script.negation] using whole

theorem excludedMiddle (h : SpelledBy f n a) :
    ∃ k, SpelledBy (.binary .or f (.not f)) k
      (Operand.ofText a ++ " | ~" ++ Operand.ofText a) := by
  obtain ⟨ts, lexes, spells⟩ := h
  obtain ⟨us, m, operand, inside⟩ := Operand.lexes_ofText lexes spells
  have readable : Style.canonical.script ≠ .latex := by decide
  obtain ⟨t, kind, right⟩ := operand.negation readable
  obtain ⟨u, kind', middle⟩ := Formula.lexes_connective readable .or right fun d first => by
    cases first
    decide
  have bar : (Style.canonical.lexeme (.connective .or)).toList = [' ', '|', ' '] := rfl
  have joint : " | ~".toList = [' ', '|', ' '] ++ Style.canonical.script.negation.toList := rfl
  rw [bar] at middle
  have denial : Spells (.right .or) (t :: us) (m + 1) (.not f) :=
    (Spells.not kind inside).loosen (by decide)
  have either : Spells (.left .or) us m f := inside.loosen (by decide)
  refine ⟨_, us ++ u :: t :: us, ?_, (Spells.binary either kind' denial).whole⟩
  rw [String.toList_append, String.toList_append, joint]
  simpa using operand.append Token.isSeparator_blank middle

theorem text (named : f.WellNamed) : SpelledBy f f.nesting f.text :=
  Formula.spelledBy_write (by decide) named

end SpelledBy

/-- A text spells a formula that is true. -/
def Holds (v : Valuation) (s : String) : Prop :=
  ∃ f, Formula.parse s = .ok f ∧ f.eval v = true

def Parses (s : String) : Prop :=
  ∃ f, Formula.parse s = .ok f

namespace Holds

variable {v : Valuation} {s : String} {f : Formula} {n : Nat}

private theorem of_spelledBy (spelled : SpelledBy f n s) (parses : Parses s) (isTrue : f.eval v = true) :
    Holds v s := by
  obtain ⟨g, parsed⟩ := parses
  have same : g = f := Formula.eq_of_parse spelled parsed
  exact ⟨g, parsed, by rw [same, isTrue]⟩

theorem eval_eq_true (h : Holds v s) (parsed : Formula.parse s = .ok f) : f.eval v = true := by
  obtain ⟨g, other, isTrue⟩ := h
  rw [parsed] at other
  cases other
  exact isTrue

end Holds

namespace Formula

variable {f g h : Formula}

theorem implication_eq_some (eq : f.implication = some (g, h)) : f = binary .implies g h := by
  unfold implication at eq
  split at eq <;> simp_all

theorem conjuncts_eq_some (eq : f.conjuncts = some (g, h)) : f = binary .and g h := by
  unfold conjuncts at eq
  split at eq <;> simp_all

theorem disjuncts_eq_some (eq : f.disjuncts = some (g, h)) : f = binary .or g h := by
  unfold disjuncts at eq
  split at eq <;> simp_all

theorem negated_eq_some (eq : f.negated = some g) : f = not g := by
  unfold negated at eq
  split at eq <;> simp_all

theorem doubleNegated_eq_some (eq : f.doubleNegated = some g) : f = not (not g) := by
  unfold doubleNegated at eq
  split at eq <;> simp_all

end Formula

namespace Derivation

theorem read?_eq_some {s : String} {f : Formula} : read? s = some f ↔ Formula.parse s = .ok f := by
  unfold read?
  cases Formula.parse s <;> simp [Except.toOption]

private theorem readInput?_of_parse {s : String} {f : Formula} (parsed : Formula.parse s = .ok f) :
    readInput? (some s) = some s := by
  obtain ⟨_, spelled, _, _⟩ := Formula.spelledBy_of_parse parsed
  simp [readInput?, guard, spelled.isBlank_eq_false, read?_eq_some.2 parsed]

theorem assumption_of_parse {s : String} {f : Formula} (parsed : Formula.parse s = .ok f) :
    assumption (some s) = some ⟨s, [], .opens, none⟩ := by
  rw [assumption, readInput?_of_parse parsed]
  rfl

theorem excludedMiddle_of_parse {s : String} {f : Formula} (parsed : Formula.parse s = .ok f) :
    excludedMiddle (some s) = some (continued (Operand.ofText s ++ " | ~" ++ Operand.ofText s) []) := by
  rw [excludedMiddle, readInput?_of_parse parsed]
  rfl

/-- The two texts that a rule compares, if it takes two steps in this order. -/
def compared? (kind : RuleKind) (minor major : Step) : Option (String × String) :=
  match kind with
  | .modusPonens => do
    let (antecedent, _) ← (← read? major.formula).implication
    guard (Comparison.sameFormula minor.formula antecedent.text)
    return (minor.formula, antecedent.text)
  | .modusTollens => do
    let (_, consequent) ← (← read? major.formula).implication
    let denied ← (← read? minor.formula).negated
    guard (Comparison.sameFormula denied.text consequent.text)
    return (denied.text, consequent.text)
  | _ => none

def accepted? (kind : RuleKind) : List Step → Option (String × String)
  | [a, b] => (compared? kind a b).or (compared? kind b a)
  | _ => none

/-- Texts that were taken for the same formula spell the same one. -/
def Faithful (kind : RuleKind) (cited : List Step) : Prop :=
  ∀ s t, accepted? kind cited = some (s, t) → ∃ f, Formula.parse s = .ok f ∧ Formula.parse t = .ok f

theorem faithful_of_ne {kind : RuleKind} (ponens : kind ≠ .modusPonens)
    (tollens : kind ≠ .modusTollens) (cited : List Step) : Faithful kind cited := by
  have none (a b : Step) : compared? kind a b = none := by
    cases kind with
    | modusPonens => exact absurd rfl ponens
    | modusTollens => exact absurd rfl tollens
    | _ => rfl
  intro s t accepted
  unfold accepted? at accepted
  split at accepted
  · rw [none, none] at accepted
    cases accepted
  · cases accepted

variable {v : Valuation} {cited : List Step} {d : Derivation}

private theorem holds_consequent {minor major : String} {e f g : Formula}
    (parsed : Formula.parse major = .ok (.binary .implies f g))
    (first : Formula.parse minor = .ok e) (second : Formula.parse f.text = .ok e)
    (left : Holds v minor) (right : Holds v major) (parses : Parses g.text) : Holds v g.text := by
  have named := Formula.wellNamed_of_parse parsed
  have same : e = f := Formula.eq_of_parse (.text (Formula.wellNamed_left named)) second
  have antecedent : f.eval v = true := same ▸ left.eval_eq_true first
  have implication := right.eval_eq_true parsed
  have consequent : g.eval v = true := by
    simpa [Formula.eval, Connective.eval, antecedent] using implication
  exact .of_spelledBy (.text (Formula.wellNamed_right named)) parses consequent

private theorem holds_denial {minor major : String} {e f g h : Formula}
    (parsed : Formula.parse major = .ok (.binary .implies f g))
    (denies : Formula.parse minor = .ok (.not h)) (first : Formula.parse h.text = .ok e)
    (second : Formula.parse g.text = .ok e) (left : Holds v minor) (right : Holds v major)
    (parses : Parses ("~(" ++ f.text ++ ")")) : Holds v ("~(" ++ f.text ++ ")") := by
  have named := Formula.wellNamed_of_parse parsed
  have named' := Formula.wellNamed_not (Formula.wellNamed_of_parse denies)
  have same : h = g := by
    rw [← Formula.eq_of_parse (.text named') first,
      Formula.eq_of_parse (.text (Formula.wellNamed_right named)) second]
  have consequent : g.eval v = false := by
    simpa [Formula.eval, same] using left.eval_eq_true denies
  have implication := right.eval_eq_true parsed
  have antecedent : f.eval v = false := by
    simpa [Formula.eval, Connective.eval, consequent] using implication
  obtain ⟨_, spelled⟩ := SpelledBy.denied (.text (Formula.wellNamed_left named))
  exact .of_spelledBy spelled parses (by simp [Formula.eval, antecedent])

/-- A rule does not take two steps in this order, or what it concludes is true where the steps are, if the two
texts that it compares spell one formula. -/
def SoundPair (v : Valuation) (kind : RuleKind) (conclude : Step → Step → Option String)
    (minor major : Step) : Prop :=
  (conclude minor major = none ∧ compared? kind minor major = none) ∨
    ∃ c s t, conclude minor major = some c ∧ compared? kind minor major = some (s, t) ∧
      ∀ f, Formula.parse s = .ok f → Formula.parse t = .ok f → Holds v minor.formula →
        Holds v major.formula → Parses c → Holds v c

private theorem soundPair_detach (minor major : Step) : SoundPair v .modusPonens detach? minor major := by
  unfold SoundPair detach? compared?
  cases read : read? major.formula with
  | none => exact Or.inl ⟨rfl, rfl⟩
  | some whole =>
    have parsed := read?_eq_some.1 read
    cases shape : whole.implication with
    | none => exact Or.inl (by simp [shape])
    | some sides =>
      obtain ⟨f, g⟩ := sides
      rw [Formula.implication_eq_some shape] at parsed
      by_cases accepted : Comparison.sameFormula minor.formula f.text = true
      · refine Or.inr ⟨g.text, minor.formula, f.text, ?_, ?_, fun e => holds_consequent parsed⟩
        · simp [shape, accepted, guard]
        · simp [shape, accepted, guard]
      · exact Or.inl (by simp [shape, accepted, guard])

private theorem soundPair_refute (minor major : Step) : SoundPair v .modusTollens refute? minor major := by
  unfold SoundPair refute? compared?
  cases read : read? major.formula with
  | none => exact Or.inl ⟨rfl, rfl⟩
  | some whole =>
    cases other : read? minor.formula with
    | none => exact Or.inl (by cases whole.implication <;> simp)
    | some negation =>
      have parsed := read?_eq_some.1 read
      have denies := read?_eq_some.1 other
      cases shape : whole.implication with
      | none => exact Or.inl (by simp [shape])
      | some sides =>
        obtain ⟨f, g⟩ := sides
        rw [Formula.implication_eq_some shape] at parsed
        cases denial : negation.negated with
        | none => exact Or.inl (by simp [denial])
        | some h =>
          rw [Formula.negated_eq_some denial] at denies
          by_cases accepted : Comparison.sameFormula h.text g.text = true
          · refine Or.inr ⟨"~(" ++ f.text ++ ")", h.text, g.text, ?_, ?_,
              fun e => holds_denial parsed denies⟩
            · simp [shape, denial, accepted, guard]
            · simp [shape, denial, accepted, guard]
          · exact Or.inl (by simp [shape, denial, accepted, guard])

private theorem holds_of_matched {kind : RuleKind} {conclude : Step → Step → Option String}
    (sound : ∀ minor major, SoundPair v kind conclude minor major)
    (h : matched conclude cited = some d) (holds : ∀ c ∈ cited, Holds v c.formula)
    (faithful : Faithful kind cited) (parses : Parses d.formula) : Holds v d.formula := by
  obtain ⟨a, b, t, rfl, either, rfl⟩ := matched_eq_some h
  have left : Holds v a.formula := holds a (by simp)
  have right : Holds v b.formula := holds b (by simp)
  have spelled : ∀ s t, (compared? kind a b).or (compared? kind b a) = some (s, t) →
      ∃ f, Formula.parse s = .ok f ∧ Formula.parse t = .ok f := faithful
  unfold eitherOrder at either
  rcases sound a b with ⟨none, none'⟩ | ⟨c, s, s', some, some', follows⟩
  · rw [none, Option.none_or] at either
    rw [none'] at spelled
    rcases sound b a with ⟨none, _⟩ | ⟨c, s, s', some, some', follows⟩
    · rw [none] at either
      cases either
    · rw [some] at either
      cases either
      obtain ⟨f, first, second⟩ := spelled s s' (by rw [some']; rfl)
      exact follows f first second right left parses
  · rw [some] at either
    cases either
    obtain ⟨f, first, second⟩ := spelled s s' (by rw [some']; rfl)
    exact follows f first second left right parses

private theorem holds_of_conjunction (h : conjunction cited = some d)
    (holds : ∀ c ∈ cited, Holds v c.formula) (parses : Parses d.formula) : Holds v d.formula := by
  obtain ⟨a, b, f, g, rfl, first, second, rfl⟩ := conjunction_eq_some h
  have parsedA := read?_eq_some.1 first
  have parsedB := read?_eq_some.1 second
  obtain ⟨_, spelledA, _, _⟩ := Formula.spelledBy_of_parse parsedA
  obtain ⟨_, spelledB, _, _⟩ := Formula.spelledBy_of_parse parsedB
  obtain ⟨_, spelled⟩ := spelledA.joined .and spelledB
  refine .of_spelledBy spelled parses ?_
  have left := (holds a (by simp)).eval_eq_true parsedA
  have right := (holds b (by simp)).eval_eq_true parsedB
  simp [Formula.eval, Connective.eval, left, right]

private theorem holds_of_disjunction {input : Option String} {arrange : String → String → String × String}
    (order : ∀ s t, arrange s t = (s, t) ∨ arrange s t = (t, s))
    (h : disjunction input arrange cited = some d) (holds : ∀ c ∈ cited, Holds v c.formula)
    (parses : Parses d.formula) : Holds v d.formula := by
  obtain ⟨a, f, t, g, rfl, _, whole, added, rfl⟩ := disjunction_eq_some h
  have parsedA := read?_eq_some.1 whole
  obtain ⟨_, spelledA, _, _⟩ := Formula.spelledBy_of_parse parsedA
  obtain ⟨_, spelledB, _, _⟩ := Formula.spelledBy_of_parse (read?_eq_some.1 added)
  have known := (holds a (by simp)).eval_eq_true parsedA
  rcases order a.formula t with arranged | arranged <;> rw [arranged] at parses ⊢
  · obtain ⟨_, spelled⟩ := spelledA.joined .or spelledB
    exact .of_spelledBy spelled parses (by simp [Formula.eval, Connective.eval, known])
  · obtain ⟨_, spelled⟩ := spelledB.joined .or spelledA
    exact .of_spelledBy spelled parses (by simp [Formula.eval, Connective.eval, known])

private theorem holds_of_part {select : Formula → Option Formula}
    (entails : ∀ f g, select f = some g →
      (f.WellNamed → g.WellNamed) ∧ (f.eval v = true → g.eval v = true))
    (h : part select cited = some d) (holds : ∀ c ∈ cited, Holds v c.formula)
    (parses : Parses d.formula) : Holds v d.formula := by
  obtain ⟨a, f, g, rfl, whole, selected, rfl⟩ := part_eq_some h
  have parsed := read?_eq_some.1 whole
  obtain ⟨named, isTrue⟩ := entails f g selected
  have spelled := SpelledBy.text (named (Formula.wellNamed_of_parse parsed))
  exact .of_spelledBy spelled parses (isTrue ((holds a (by simp)).eval_eq_true parsed))

private theorem holds_of_caseSplit (h : caseSplit cited = some d) (holds : ∀ c ∈ cited, Holds v c.formula) :
    Holds v d.formula := by
  obtain ⟨a, _, _, rfl, _, _, rfl⟩ := caseSplit_eq_some h
  exact holds a (by simp)

private theorem holds_of_excludedMiddle {input : Option String} (h : excludedMiddle input = some d)
    (parses : Parses d.formula) : Holds v d.formula := by
  obtain ⟨s, f, parsed, rfl⟩ := excludedMiddle_eq_some h
  obtain ⟨_, entered, _, _⟩ := Formula.spelledBy_of_parse (read?_eq_some.1 parsed)
  obtain ⟨_, spelled⟩ := entered.excludedMiddle
  exact .of_spelledBy spelled parses (by simp [Formula.eval, Connective.eval])

theorem holds_implication {opening last : String} {f g : Formula}
    (antecedent : Formula.parse opening = .ok f) (consequent : Formula.parse last = .ok g)
    (follows : Holds v opening → Holds v last)
    (parses : Parses (parenthesized opening ++ " -> " ++ parenthesized last)) :
    Holds v (parenthesized opening ++ " -> " ++ parenthesized last) := by
  obtain ⟨_, spelledA, _, _⟩ := Formula.spelledBy_of_parse antecedent
  obtain ⟨_, spelledB, _, _⟩ := Formula.spelledBy_of_parse consequent
  obtain ⟨_, spelled⟩ := spelledA.joined .implies spelledB
  refine .of_spelledBy spelled parses ?_
  cases value : f.eval v with
  | false => simp [Formula.eval, Connective.eval, value]
  | true =>
    have isTrue := (follows ⟨f, antecedent, value⟩).eval_eq_true consequent
    simp [Formula.eval, Connective.eval, isTrue]

private theorem entails_left {f g : Formula} (h : f.conjuncts.map Prod.fst = some g) :
    (f.WellNamed → g.WellNamed) ∧ (f.eval v = true → g.eval v = true) := by
  obtain ⟨⟨g, k⟩, shape, rfl⟩ := Option.map_eq_some_iff.1 h
  rw [Formula.conjuncts_eq_some shape]
  refine ⟨Formula.wellNamed_left, ?_⟩
  intro both
  simp only [Formula.eval, Connective.eval, Bool.and_eq_true] at both
  exact both.1

private theorem entails_right {f g : Formula} (h : f.conjuncts.map Prod.snd = some g) :
    (f.WellNamed → g.WellNamed) ∧ (f.eval v = true → g.eval v = true) := by
  obtain ⟨⟨k, g⟩, shape, rfl⟩ := Option.map_eq_some_iff.1 h
  rw [Formula.conjuncts_eq_some shape]
  refine ⟨Formula.wellNamed_right, ?_⟩
  intro both
  simp only [Formula.eval, Connective.eval, Bool.and_eq_true] at both
  exact both.2

private theorem entails_doubleNegated {f g : Formula} (h : f.doubleNegated = some g) :
    (f.WellNamed → g.WellNamed) ∧ (f.eval v = true → g.eval v = true) := by
  rw [Formula.doubleNegated_eq_some h]
  refine ⟨fun named => Formula.wellNamed_not (Formula.wellNamed_not named), ?_⟩
  intro twice
  simpa [Formula.eval] using twice

end Derivation

/-- A rule that goes on at the depth of the proof concludes what is true where all the steps that it cites
are. -/
theorem Proof.holds_of_derive {p : Proof} {kind : RuleKind} {cited : List Step}
    {input : Option String} {d : Derivation} {v : Valuation} (continued : kind.placement = .continues)
    (derived : p.derive kind cited input = some d) (holds : ∀ c ∈ cited, Holds v c.formula)
    (faithful : Derivation.Faithful kind cited) (parses : Parses d.formula) : Holds v d.formula := by
  cases kind with
  | premise => cases derived
  | assumption | impliesIntro => cases continued
  | modusPonens =>
    exact Derivation.holds_of_matched Derivation.soundPair_detach derived holds faithful parses
  | modusTollens =>
    exact Derivation.holds_of_matched Derivation.soundPair_refute derived holds faithful parses
  | andIntro => exact Derivation.holds_of_conjunction derived holds parses
  | andElimLeft =>
    exact Derivation.holds_of_part (fun _ _ => Derivation.entails_left) derived holds parses
  | andElimRight =>
    exact Derivation.holds_of_part (fun _ _ => Derivation.entails_right) derived holds parses
  | orIntroLeft =>
    exact Derivation.holds_of_disjunction (fun _ _ => Or.inl rfl) derived holds parses
  | orIntroRight =>
    exact Derivation.holds_of_disjunction (fun _ _ => Or.inr rfl) derived holds parses
  | orElim => exact Derivation.holds_of_caseSplit derived holds
  | doubleNegation =>
    exact Derivation.holds_of_part (fun _ _ => Derivation.entails_doubleNegated) derived holds parses
  | excludedMiddle => exact Derivation.holds_of_excludedMiddle derived parses

end NaturalDeduction
