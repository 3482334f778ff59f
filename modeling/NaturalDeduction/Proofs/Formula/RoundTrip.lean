import NaturalDeduction.Formula.Printer
import NaturalDeduction.Proofs.Formula.Spelling

set_option autoImplicit false
set_option relaxedAutoImplicit false

namespace NaturalDeduction

namespace Style

def chars (style : Style) (ls : List Lexeme) : List Char :=
  ls.flatMap fun l => (style.lexeme l).toList

theorem toList_write (style : Style) (ls : List Lexeme) :
    (style.write ls).toList = style.chars ls := by
  simp [write, chars, List.flatMap_map]

@[simp] theorem chars_nil (style : Style) : style.chars [] = [] := rfl

@[simp] theorem chars_cons (style : Style) (l : Lexeme) (ls : List Lexeme) :
    style.chars (l :: ls) = (style.lexeme l).toList ++ style.chars ls := by
  simp [chars]

@[simp] theorem chars_append (style : Style) (ls ms : List Lexeme) :
    style.chars (ls ++ ms) = style.chars ls ++ style.chars ms := by
  simp [chars]

end Style

namespace Formula

/-- A name that the lexer reads as one word. -/
def IsName (x : String) : Prop :=
  ∃ c tail, x.toList = c :: tail ∧ Token.isNameStart c = true ∧ c ≠ 'T' ∧ c ≠ 'F' ∧
    ∀ d ∈ tail, Token.isNameChar d = true

/-- All variables have names that the lexer reads as one word. -/
def WellNamed (f : Formula) : Prop :=
  ∀ x ∈ f.names, IsName x

/-- The largest number of parentheses, negations and right sides of `->` of the printed text around one of
its points. -/
def nesting : Formula → Nat
  | var _ => 0
  | const _ => 0
  | not g => (if g.level.rank < Level.negation.rank then nesting g + 1 else nesting g) + 1
  | binary op g h =>
    let left := if g.level.rank < (Level.left op).rank then nesting g + 1 else nesting g
    let right := if h.level.rank < (Level.right op).rank then nesting h + 1 else nesting h
    max left (if op = .implies then right + 1 else right)

def nestingAt (required : Level) (f : Formula) : Nat :=
  if f.level.rank < required.rank then f.nesting + 1 else f.nesting

theorem nesting_binary (op : Connective) (g h : Formula) :
    nesting (binary op g h) =
      max (g.nestingAt (.left op))
        (if op = .implies then h.nestingAt (.right op) + 1 else h.nestingAt (.right op)) := rfl

private theorem nestingAt_loosest (f : Formula) : f.nestingAt .loosest = f.nesting :=
  if_neg f.level.not_rank_lt_loosest

theorem lexemesAt_eq (required : Level) (f : Formula) :
    f.lexemesAt required =
      if f.level.rank < required.rank then .leftParen :: f.lexemes ++ [.rightParen]
      else f.lexemes := by
  have bare : ¬f.level.rank < Level.loosest.rank := f.level.not_rank_lt_loosest
  rw [lexemes]
  cases f <;> simp only [lexemesAt, bare, if_false]

theorem lexemes_var (x : String) : lexemes (var x) = [.name x] := by
  rw [lexemes, lexemesAt]
  exact if_neg (Level.not_rank_lt_loosest .atom)

theorem lexemes_const (b : Bool) : lexemes (const b) = [.const b] := by
  rw [lexemes, lexemesAt]
  exact if_neg (Level.not_rank_lt_loosest .atom)

theorem lexemes_not (g : Formula) : lexemes (not g) = .not :: g.lexemesAt .negation := by
  rw [lexemes, lexemesAt]
  exact if_neg (Level.not_rank_lt_loosest .negation)

theorem lexemes_binary (op : Connective) (g h : Formula) :
    lexemes (binary op g h) =
      g.lexemesAt (.left op) ++ .connective op :: h.lexemesAt (.right op) := by
  rw [lexemes, lexemesAt]
  exact if_neg (Level.not_rank_lt_loosest (.binary op))

end Formula

namespace Token

theorem lexeme?_name {x : String} {rest : List Char} (isName : Formula.IsName x)
    (stops : ∀ d ∈ rest.head?, isNameChar d = false) :
    lexeme? (x.toList ++ rest) = some ⟨.name, x.toList, rest⟩ := by
  obtain ⟨c, tail, eq, start, notTrue, notFalse, name⟩ := isName
  rw [eq, lexeme?_eq_some]
  refine Or.inr ⟨fun e member begins => ?_,
    name?_eq_some.2 ⟨rfl, rfl, ⟨c, tail, rfl, start, name⟩, stops⟩⟩
  have heads : (spellings.all fun e =>
      e.1.head?.all fun d => !isNameStart d || d == 'T' || d == 'F') = true := by decide
  cases spelled : e.1 with
  | nil => exact spellings_ne_nil member spelled
  | cons d spelling =>
    rw [spelled] at begins
    have same : d = c := (List.cons_prefix_cons.1 begins).1
    subst same
    have head := List.all_eq_true.1 heads e member
    simp [spelled, start, notTrue, notFalse] at head

theorem isName_of_lexeme? {text rest : List Char}
    (h : lexeme? (text ++ rest) = some ⟨.name, text, rest⟩) :
    Formula.IsName (String.ofList text) ∧ ∀ d ∈ rest.head?, isNameChar d = false := by
  rcases lexeme?_eq_some.1 h with fixed | ⟨none, named⟩
  · obtain ⟨_, before, after, split, _⟩ := fixedLexeme?_eq_some.1 fixed
    have listed : (text, TokenKind.name) ∈ spellings := by simp [split]
    have other : ∀ e ∈ spellings, e.2 ≠ .name := by decide
    exact absurd rfl (other _ listed)
  · obtain ⟨_, _, ⟨c, tail, eq, start, name⟩, stops⟩ := name?_eq_some.1 named
    dsimp only at eq
    subst eq
    refine ⟨⟨c, tail, String.toList_ofList, start, ?_, ?_, name⟩, stops⟩
    · rintro rfl
      exact none (['T'], .const true) (by decide) (by simp [List.cons_prefix_cons])
    · rintro rfl
      exact none (['F'], .const false) (by decide) (by simp [List.cons_prefix_cons])

end Token

namespace Lexes

variable {script : Script} {rest : List Char} {us : List Token}

private theorem lexeme?_bar (h : ∀ d ∈ rest.head?, d ≠ '|') :
    Token.lexeme? ('|' :: rest) = some ⟨.connective .or, ['|'], rest⟩ := by
  cases rest with
  | nil => rfl
  | cons c rest =>
    have other : ¬ '|' = c := fun same => h c rfl same.symm
    simp [Token.lexeme?, Token.fixedLexeme?, Token.spellings, List.cons_prefix_cons, other]

private theorem connective (readable : script ≠ .latex) (op : Connective) (after : Lexes rest us)
    (apart : ∀ d ∈ rest.head?, d ≠ '|') :
    ∃ t : Token, t.kind = .connective op ∧
      Lexes ((script.connective op).toList ++ rest) (t :: us) := by
  refine ⟨⟨.connective op, script.connective op, 0⟩, rfl, cons ?_ (by simp) after⟩
  cases script with
  | latex => exact absurd rfl readable
  | unicode => cases op <;> rfl
  | ascii =>
    cases op with
    | or => exact lexeme?_bar apart
    | and | implies | iff => rfl

theorem negation (readable : script ≠ .latex) (after : Lexes rest us) :
    ∃ t : Token, t.kind = .not ∧ Lexes (script.negation.toList ++ rest) (t :: us) := by
  refine ⟨⟨.not, script.negation, 0⟩, rfl, cons ?_ (by simp) after⟩
  cases script with
  | latex => exact absurd rfl readable
  | unicode | ascii => rfl

private theorem const (readable : script ≠ .latex) (b : Bool) (after : Lexes rest us) :
    ∃ t : Token, t.kind = .const b ∧ Lexes ((script.const b).toList ++ rest) (t :: us) := by
  refine ⟨⟨.const b, script.const b, 0⟩, rfl, cons ?_ (by simp) after⟩
  cases script with
  | latex => exact absurd rfl readable
  | unicode | ascii => cases b <;> rfl

private theorem name {x : String} (isName : Formula.IsName x) (after : Lexes rest us)
    (stops : ∀ d ∈ rest.head?, Token.isNameChar d = false) :
    Lexes (x.toList ++ rest) (⟨.name, x, 0⟩ :: us) :=
  cons (Token.lexeme?_name isName stops) (by simp) after

end Lexes

namespace Formula

variable {style : Style}

theorem wellNamed_not {g : Formula} (h : (not g).WellNamed) : g.WellNamed := h

theorem wellNamed_left {op : Connective} {g h : Formula}
    (named : (binary op g h).WellNamed) : g.WellNamed :=
  fun x member => named x (List.mem_append_left _ member)

theorem wellNamed_right {op : Connective} {g h : Formula}
    (named : (binary op g h).WellNamed) : h.WellNamed :=
  fun x member => named x (List.mem_append_right _ member)

private theorem head_append {p : Char → Bool} {cs rest : List Char} (h : cs.head?.any p = true) :
    ∀ d ∈ (cs ++ rest).head?, p d = true := by
  cases cs with
  | nil => cases h
  | cons c cs =>
    intro d first
    cases first
    exact h

private theorem head_sign (readable : style.script ≠ .latex) {l : Lexeme}
    (sign : l = .leftParen ∨ l = .not ∨ ∃ b, l = .const b) (rest : List Char) :
    ∀ d ∈ ((style.lexeme l).toList ++ rest).head?, d ≠ '|' := by
  have begins : (style.lexeme l).toList.head?.any (· != '|') = true := by
    obtain ⟨script, spaced⟩ := style
    cases script with
    | latex => exact absurd rfl readable
    | unicode | ascii =>
      cases spaced <;> rcases sign with rfl | rfl | ⟨_ | _, rfl⟩ <;> decide
  intro d first
  simpa using head_append begins d first

private theorem head_name {x : String} (isName : IsName x) (rest : List Char) :
    ∀ d ∈ ((style.lexeme (.name x)).toList ++ rest).head?, d ≠ '|' := by
  obtain ⟨c, tail, eq, start, _⟩ := isName
  intro d first
  simp only [Style.lexeme, eq, List.cons_append] at first
  cases first
  rintro rfl
  exact absurd start (by decide)

private theorem head_chars {f : Formula} (readable : style.script ≠ .latex)
    (named : f.WellNamed) (required : Level) (rest : List Char) :
    ∀ d ∈ (style.chars (f.lexemesAt required) ++ rest).head?, d ≠ '|' := by
  have bare : ∀ rest, ∀ d ∈ (style.chars f.lexemes ++ rest).head?, d ≠ '|' := by
    induction f generalizing required with
    | var x =>
      intro rest
      rw [lexemes_var, Style.chars_cons, List.append_assoc]
      exact head_name (named x List.mem_cons_self) _
    | const b =>
      intro rest
      rw [lexemes_const, Style.chars_cons, List.append_assoc]
      exact head_sign readable (Or.inr (Or.inr ⟨b, rfl⟩)) _
    | not g _ =>
      intro rest
      rw [lexemes_not, Style.chars_cons, List.append_assoc]
      exact head_sign readable (Or.inr (Or.inl rfl)) _
    | binary op g h ih _ =>
      intro rest
      rw [lexemes_binary, Style.chars_append, List.append_assoc, lexemesAt_eq]
      split
      · rw [List.cons_append, Style.chars_cons, List.append_assoc]
        exact head_sign readable (Or.inl rfl) _
      · exact ih (wellNamed_left named) required _
  rw [lexemesAt_eq]
  split
  · rw [List.cons_append, Style.chars_cons, List.append_assoc]
    exact head_sign readable (Or.inl rfl) _
  · exact bare rest

private theorem stops_connective (readable : style.script ≠ .latex) (op : Connective)
    (rest : List Char) :
    ∀ d ∈ ((style.lexeme (.connective op)).toList ++ rest).head?, Token.isNameChar d = false := by
  have begins : (style.lexeme (.connective op)).toList.head?.any (!Token.isNameChar ·) = true := by
    obtain ⟨script, spaced⟩ := style
    cases script with
    | latex => exact absurd rfl readable
    | unicode | ascii => cases spaced <;> cases op <;> decide
  intro d first
  simpa using head_append begins d first

theorem lexes_connective (readable : style.script ≠ .latex) (op : Connective)
    {rest : List Char} {us : List Token} (after : Lexes rest us) (apart : ∀ d ∈ rest.head?, d ≠ '|') :
    ∃ t : Token, t.kind = .connective op ∧
      Lexes ((style.lexeme (.connective op)).toList ++ rest) (t :: us) := by
  cases spaced : style.spaced with
  | false =>
    have plain : style.lexeme (.connective op) = style.script.connective op := by
      simp [Style.lexeme, spaced]
    rw [plain]
    exact after.connective readable op apart
  | true =>
    have blanks : (style.lexeme (.connective op)).toList =
        [' '] ++ (style.script.connective op).toList ++ [' '] := by
      simp [Style.lexeme, spaced]
    have white : ∀ c ∈ [' '], Text.isWhiteSpace c = true := by
      intro c member
      rw [List.mem_singleton.1 member]
      rfl
    have gap : Lexes ([' '] ++ rest) us := after.white_append white
    obtain ⟨t, kind, lexes⟩ := gap.connective readable op fun d first => by
      cases first
      decide
    refine ⟨t, kind, ?_⟩
    rw [blanks, List.append_assoc, List.append_assoc]
    exact lexes.white_append white

private theorem lexes_at {f : Formula}
    (bare : ∀ {rest us}, Lexes rest us → (∀ d ∈ rest.head?, Token.isNameChar d = false) →
      ∃ ts, Lexes (style.chars f.lexemes ++ rest) (ts ++ us) ∧ Spells f.level ts f.nesting f)
    (required : Level) {rest : List Char} {us : List Token} (after : Lexes rest us)
    (stops : ∀ d ∈ rest.head?, Token.isNameChar d = false) :
    ∃ ts, Lexes (style.chars (f.lexemesAt required) ++ rest) (ts ++ us) ∧
      Spells required ts (f.nestingAt required) f := by
  rw [lexemesAt_eq, nestingAt]
  split
  · have closed : Lexes (')' :: rest) (⟨.rightParen, ")", 0⟩ :: us) := after.rightParen
    obtain ⟨ts, lexes, spells⟩ := bare closed fun d first => by
      cases first
      decide
    have inside : Spells .loosest ts f.nesting f := spells.whole
    refine ⟨⟨.leftParen, "(", 0⟩ :: ts ++ [⟨.rightParen, ")", 0⟩], ?_, inside.parens required⟩
    simpa [Style.lexeme] using lexes.leftParen
  · rename_i tight
    obtain ⟨ts, lexes, spells⟩ := bare after stops
    exact ⟨ts, lexes, spells.loosen (Nat.not_lt.1 tight)⟩

private theorem lexes_lexemes (readable : style.script ≠ .latex) {f : Formula} (named : f.WellNamed)
    {rest : List Char} {us : List Token} (after : Lexes rest us)
    (stops : ∀ d ∈ rest.head?, Token.isNameChar d = false) :
    ∃ ts, Lexes (style.chars f.lexemes ++ rest) (ts ++ us) ∧ Spells f.level ts f.nesting f := by
  induction f generalizing rest us with
  | var x =>
    refine ⟨[⟨.name, x, 0⟩], ?_, .var rfl⟩
    rw [lexemes_var]
    simpa [Style.lexeme] using after.name (named x List.mem_cons_self) stops
  | const b =>
    obtain ⟨t, kind, lexes⟩ := after.const readable b
    refine ⟨[t], ?_, .const kind⟩
    rw [lexemes_const]
    simpa [Style.lexeme] using lexes
  | not g ih =>
    obtain ⟨ts, inner, spells⟩ := lexes_at (ih (wellNamed_not named)) .negation after stops
    obtain ⟨t, kind, lexes⟩ := inner.negation readable
    refine ⟨t :: ts, ?_, .not kind spells⟩
    rw [lexemes_not]
    simpa [Style.lexeme] using lexes
  | binary op g h ihg ihh =>
    obtain ⟨vs, right, spells'⟩ := lexes_at (ihh (wellNamed_right named)) (.right op) after stops
    obtain ⟨t, kind, middle⟩ := lexes_connective readable op right
      (head_chars readable (wellNamed_right named) (.right op) rest)
    obtain ⟨ts, left, spells⟩ := lexes_at (ihg (wellNamed_left named)) (.left op) middle
      (stops_connective readable op _)
    refine ⟨ts ++ t :: vs, ?_, .binary spells kind spells'⟩
    rw [lexemes_binary]
    simpa using left

theorem spelledBy_write (readable : style.script ≠ .latex) {f : Formula} (named : f.WellNamed) :
    SpelledBy f f.nesting (f.write style) := by
  obtain ⟨ts, lexes, spells⟩ := lexes_lexemes readable named .nil (by simp)
  refine ⟨ts, ?_, spells.whole⟩
  rw [write, Style.toList_write]
  simpa using lexes

private theorem nestingAt_le {l : Level} {ts : List Token} {n : Nat} {f : Formula} (h : Spells l ts n f) :
    f.nestingAt l ≤ n := by
  have drop (l : Level) (f : Formula) : f.nesting ≤ f.nestingAt l ∧ f.nestingAt l ≤ f.nesting + 1 := by
    unfold nestingAt
    split <;> omega
  have own (f : Formula) : f.nestingAt f.level = f.nesting := if_neg (Nat.lt_irrefl _)
  induction h with
  | var _ => exact Nat.le_of_eq (own (var _))
  | const _ => exact Nat.le_of_eq (own (const _))
  | @paren _ _ ts n f _ _ _ ih =>
    have inner := drop .loosest f
    have whole := drop .atom f
    omega
  | @not t ts n f _ _ ih =>
    have bare : (not f).nestingAt .negation = f.nestingAt .negation + 1 := own (not f)
    omega
  | @implies t ts us m n f g _ _ _ ihf ihg =>
    have bare := own (binary .implies f g)
    rw [nesting_binary, if_pos rfl, level] at bare
    omega
  | @chain op t ts us m n f g grouping _ _ _ ihf ihg =>
    have bare := own (binary op f g)
    rw [nesting_binary, if_neg grouping, level] at bare
    omega
  | @tighter l ts n f below _ ih =>
    have looser := Level.rank_tighter below
    refine Nat.le_trans ?_ ih
    unfold nestingAt
    split <;> split <;> omega

private theorem isName_of_lexes {cs : List Char} {ts : List Token} (h : Lexes cs ts) :
    ∀ t ∈ ts, t.kind = .name → IsName t.text := by
  induction h with
  | blank _ => simp
  | @token gap text rest t ts _ first spelled _ ih =>
    intro u member isName
    rcases List.mem_cons.1 member with rfl | later
    · rw [isName] at first
      rw [spelled]
      exact (Token.isName_of_lexeme? first).1
    · exact ih u later isName

private theorem exists_token_of_mem_names {l : Level} {ts : List Token} {n : Nat} {f : Formula}
    (h : Spells l ts n f) : ∀ x ∈ f.names, ∃ t ∈ ts, t.kind = .name ∧ t.text = x := by
  induction h with
  | @var t kind =>
    intro x member
    exact ⟨t, List.mem_singleton_self t, kind, (List.mem_singleton.1 member).symm⟩
  | const _ =>
    intro x member
    cases member
  | paren _ _ _ ih =>
    intro x member
    obtain ⟨t, inside, name⟩ := ih x member
    exact ⟨t, List.mem_append_left _ (List.mem_cons_of_mem _ inside), name⟩
  | not _ _ ih =>
    intro x member
    obtain ⟨t, inside, name⟩ := ih x member
    exact ⟨t, List.mem_cons_of_mem _ inside, name⟩
  | implies _ _ _ ihf ihg | chain _ _ _ _ ihf ihg =>
    intro x member
    rcases List.mem_append.1 member with left | right
    · obtain ⟨t, inside, name⟩ := ihf x left
      exact ⟨t, List.mem_append_left _ inside, name⟩
    · obtain ⟨t, inside, name⟩ := ihg x right
      exact ⟨t, List.mem_append_right _ (List.mem_cons_of_mem _ inside), name⟩
  | tighter _ _ ih => exact ih

/-- What a text spells has names that the lexer reads, and prints with no more nesting. -/
theorem wellNamed_of_spelledBy {f : Formula} {n : Nat} {s : String} (h : SpelledBy f n s) :
    f.WellNamed ∧ f.nesting ≤ n := by
  obtain ⟨ts, lexes, spells⟩ := h
  constructor
  · intro x member
    obtain ⟨t, inside, kind, rfl⟩ := exists_token_of_mem_names spells x member
    exact isName_of_lexes lexes t inside kind
  · rw [← nestingAt_loosest]
    exact nestingAt_le spells

theorem wellNamed_of_parse {f : Formula} {s : String} (parsed : parse s = .ok f) : f.WellNamed := by
  obtain ⟨_, spelled, _, _⟩ := spelledBy_of_parse parsed
  exact (wellNamed_of_spelledBy spelled).1

/-- A printed formula is parsed back. Its text is made of tokens that spell it with the nesting `nesting`, and
parsing gives the formula itself when nesting and height are at most 256, and else finds the text too deep. A
formula that came out of the parser is always given back. -/
theorem parse_write :
    (∀ (f : Formula) (style : Style), f.WellNamed → style.script ≠ .latex →
      (∃ ts, tokenize (f.write style) = .ok ts ∧
        Spells .loosest (ts.takeWhile (!·.isEnd)) f.nesting f) ∧
      (f.depth - 1 ≤ 256 ∧ f.nesting ≤ 256 → parse (f.write style) = .ok f) ∧
      (¬(f.depth - 1 ≤ 256 ∧ f.nesting ≤ 256) →
        ∃ offset, parse (f.write style) = .error (.grammatical (.tooDeep offset)))) ∧
      ∀ (s : String) (f : Formula), parse s = .ok f →
        f.WellNamed ∧ f.depth - 1 ≤ 256 ∧ f.nesting ≤ 256 ∧ parse f.text = .ok f ∧
          ∀ style : Style, style.script ≠ .latex → parse (f.write style) = .ok f := by
  constructor
  · intro f style named readable
    have spelled := spelledBy_write readable named
    refine ⟨?_, fun fits => parse_of_spelledBy spelled fits.2 fits.1, fun deep => ?_⟩
    · obtain ⟨ts, lexes, spells⟩ := spelled
      exact tokenize_of_lexes lexes spells
    · exact parse_of_spelledBy_deep spelled fun fits => deep ⟨fits.2, fits.1⟩
  · intro s f parsed
    obtain ⟨n, spelled, nests, high⟩ := spelledBy_of_parse parsed
    obtain ⟨named, least⟩ := wellNamed_of_spelledBy spelled
    have fits : f.nesting ≤ depthLimit := Nat.le_trans least nests
    have back (style : Style) (readable : style.script ≠ .latex) :
        parse (f.write style) = .ok f :=
      parse_of_spelledBy (spelledBy_write readable named) fits high
    exact ⟨named, high, fits, back .canonical (by decide), back⟩

theorem parse_write_negated_implication :
    parse "¬(p→q)" = .ok (.not (.binary .implies (.var "p") (.var "q"))) := by
  have isP : IsName "p" := ⟨'p', [], rfl, rfl, by decide, by decide, by simp⟩
  have isQ : IsName "q" := ⟨'q', [], rfl, rfl, by decide, by decide, by simp⟩
  have named : WellNamed (.not (.binary .implies (.var "p") (.var "q"))) := by
    intro x member
    rcases List.mem_cons.1 member with rfl | later
    · exact isP
    · rw [List.mem_singleton.1 later]
      exact isQ
  exact (parse_write.1 _ ⟨.unicode, false⟩ named (by decide)).2.1 (by decide)

end Formula

end NaturalDeduction
