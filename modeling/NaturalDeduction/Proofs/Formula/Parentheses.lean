import NaturalDeduction.Proofs.Formula.Operand
import NaturalDeduction.Proofs.Formula.RoundTrip

set_option autoImplicit false
set_option relaxedAutoImplicit false

namespace NaturalDeduction

private theorem Lexes.count_leftParen {cs : List Char} {ts : List Token} (h : Lexes cs ts) :
    cs.count '(' = ts.countP (·.kind == .leftParen) := by
  have blank {gap : List Char} (white : ∀ c ∈ gap, Text.isWhiteSpace c = true) :
      gap.count '(' = 0 :=
    List.count_eq_zero.2 fun member => (Operand.plain_of_white white _ member).1 rfl
  induction h with
  | blank white => exact blank white
  | @token gap text rest t ts white first _ _ ih =>
    obtain ⟨left, right, other⟩ := Token.text_of_kind first
    dsimp only at left right other
    have own : text.count '(' = if (t.kind == .leftParen) = true then 1 else 0 := by
      by_cases opens : t.kind = .leftParen
      · rw [left opens, opens]
        rfl
      · rw [if_neg (by simpa using opens), List.count_eq_zero]
        intro member
        by_cases closes : t.kind = .rightParen
        · rw [right closes] at member
          exact absurd member (by decide)
        · exact (other opens closes _ member).1 rfl
    rw [List.count_append, List.count_append, blank white, own, ih, List.countP_cons]
    omega

namespace Formula

private theorem count_lexemesAt (required : Level) (f : Formula) :
    (f.lexemesAt required).count .leftParen =
      f.lexemes.count .leftParen + if f.level.rank < required.rank then 1 else 0 := by
  rw [lexemesAt_eq]
  split <;> simp

/-- No derivation of a formula at a level has fewer parentheses than are printed in a place that asks for the
level. -/
private theorem count_lexemesAt_le {l : Level} {ts : List Token} {n : Nat} {f : Formula}
    (h : Spells l ts n f) :
    (f.lexemesAt l).count .leftParen ≤ ts.countP (·.kind == .leftParen) := by
  have own (f : Formula) : f.lexemesAt f.level = f.lexemes := by
    rw [lexemesAt_eq, if_neg (Nat.lt_irrefl _)]
  have joined (op : Connective) (f g : Formula) : (binary op f g).lexemesAt (.binary op) =
      f.lexemesAt (.left op) ++ .connective op :: g.lexemesAt (.right op) :=
    (own _).trans (lexemes_binary op f g)
  induction h with
  | @var t _ =>
    have bare : (var t.text).lexemesAt .atom = [.name t.text] := (own _).trans (lexemes_var _)
    rw [bare]
    exact Nat.zero_le _
  | @const t b _ =>
    have bare : (const b).lexemesAt .atom = [.const b] := (own _).trans (lexemes_const _)
    rw [bare]
    exact Nat.zero_le _
  | @paren opening closing ts n f left _ right ih =>
    -- the pair in the text makes up for the pair that the printer may need here
    have inner := count_lexemesAt .loosest f
    have whole := count_lexemesAt .atom f
    have pair : (opening :: ts ++ [closing]).countP (·.kind == .leftParen) =
        ts.countP (·.kind == .leftParen) + 1 := by
      simp [left, right]
    split at whole <;> omega
  | @not t ts n f kind _ ih =>
    have bare : (not f).lexemesAt .negation = .not :: f.lexemesAt .negation :=
      (own _).trans (lexemes_not _)
    rw [bare]
    simpa [kind] using ih
  | @implies t ts us m n f g _ kind _ ihf ihg =>
    rw [joined .implies f g]
    simpa [kind] using Nat.add_le_add ihf ihg
  | @chain op t ts us m n f g _ _ kind _ ihf ihg =>
    rw [joined op f g]
    simpa [kind] using Nat.add_le_add ihf ihg
  | @tighter l ts n f below _ ih =>
    have looser := Level.rank_tighter below
    refine Nat.le_trans ?_ ih
    rw [count_lexemesAt, count_lexemesAt]
    split <;> split <;> omega

private theorem count_chars_lexemes (style : Style) {f : Formula} (named : f.WellNamed) :
    (style.chars f.lexemes).count '(' = f.lexemes.count .leftParen := by
  have place {g : Formula} (required : Level)
      (bare : (style.chars g.lexemes).count '(' = g.lexemes.count .leftParen) :
      (style.chars (g.lexemesAt required)).count '(' = (g.lexemesAt required).count .leftParen := by
    rw [lexemesAt_eq]
    split
    · simp [Style.lexeme, bare]
    · exact bare
  have sign (l : Lexeme) (other : l = .not ∨ (∃ b, l = .const b) ∨ ∃ op, l = .connective op) :
      (style.lexeme l).toList.count '(' = 0 := by
    obtain ⟨script, spaced⟩ := style
    rcases other with rfl | ⟨_ | _, rfl⟩ | ⟨op, rfl⟩
    · cases script <;> cases spaced <;> decide
    · cases script <;> cases spaced <;> decide
    · cases script <;> cases spaced <;> decide
    · cases script <;> cases spaced <;> cases op <;> decide
  induction f with
  | var x =>
    obtain ⟨c, tail, eq, start, _, _, rest⟩ := named x List.mem_cons_self
    have absent : '(' ∉ x.toList := by
      rw [eq]
      intro member
      rcases List.mem_cons.1 member with rfl | later
      · cases start
      · cases rest _ later
    simp [lexemes_var, Style.lexeme, List.count_eq_zero.2 absent]
  | const b =>
    rw [lexemes_const, Style.chars_cons, List.count_append, sign _ (Or.inr (Or.inl ⟨b, rfl⟩))]
    rfl
  | not g ih =>
    rw [lexemes_not, Style.chars_cons, List.count_append, sign _ (Or.inl rfl),
      place _ (ih (wellNamed_not named))]
    simp
  | binary op g h ihg ihh =>
    rw [lexemes_binary, Style.chars_append, Style.chars_cons, List.count_append, List.count_append,
      sign _ (Or.inr (Or.inr ⟨op, rfl⟩)), place _ (ihg (wellNamed_left named)),
      place _ (ihh (wellNamed_right named))]
    simp

private theorem count_text_le {s : String} {f : Formula} (parsed : parse s = .ok f) :
    f.text.toList.count '(' ≤ s.toList.count '(' := by
  obtain ⟨n, spelled, _, _⟩ := spelledBy_of_parse parsed
  obtain ⟨named, _⟩ := wellNamed_of_spelledBy spelled
  obtain ⟨ts, lexes, spells⟩ := spelled
  calc f.text.toList.count '(' = f.lexemes.count .leftParen := by
        rw [text, write, Style.toList_write, count_chars_lexemes _ named]
    _ ≤ ts.countP (·.kind == .leftParen) := count_lexemesAt_le spells
    _ = s.toList.count '(' := lexes.count_leftParen.symm

/-- Printed parentheses are minimal. The printed text of a formula that came out of the parser is a text of the
formula, no text of it has fewer opening parentheses in whatever spelling, and what is left of the printed text
without a pair that the printer wrote is no text of it. -/
theorem parens_text_minimal {s : String} {f : Formula} (parsed : parse s = .ok f) :
    f.text.toList.count '(' ≤ s.toList.count '(' ∧ parse f.text = .ok f ∧
      ∀ before inside after, f.text.toList = before ++ '(' :: (inside ++ ')' :: after) →
        parse (String.ofList (before ++ (inside ++ after))) ≠ .ok f := by
  refine ⟨count_text_le parsed, ?_, fun before inside after pair other => ?_⟩
  · obtain ⟨n, spelled, nests, high⟩ := spelledBy_of_parse parsed
    obtain ⟨named, least⟩ := wellNamed_of_spelledBy spelled
    exact parse_of_spelledBy (spelledBy_write (by decide) named) (Nat.le_trans least nests) high
  · have fewer := count_text_le other
    rw [pair, String.toList_ofList] at fewer
    simp only [List.count_append, List.count_cons_self] at fewer
    have kept : inside.count '(' + after.count '(' ≤ (inside ++ ')' :: after).count '(' := by
      simp
    rw [List.count_append] at kept
    omega

theorem parens_text_minimal_negated_implication :
    parse "((¬(p→q)))" = .ok (.not (.binary .implies (.var "p") (.var "q"))) ∧
      "~(p -> q)".toList.count '(' ≤ "((¬(p→q)))".toList.count '(' ∧
      parse "~p -> q" ≠ .ok (.not (.binary .implies (.var "p") (.var "q"))) := by
  have parsed : parse "((¬(p→q)))" = .ok (.not (.binary .implies (.var "p") (.var "q"))) := by cbv
  obtain ⟨fewest, _, needed⟩ := parens_text_minimal parsed
  exact ⟨parsed, fewest, needed ['~'] ['p', ' ', '-', '>', ' ', 'q'] [] (by decide)⟩

end Formula

end NaturalDeduction
