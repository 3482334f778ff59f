import NaturalDeduction.Formula.Comparison
import NaturalDeduction.Proofs.Formula.InOrder

/-!
What the comparison of texts identifies. White space and parentheses are dropped and capitals are made small, yet
what is left of a text of a formula still determines the signs of the formula in order and how they are spelled.
So two printed formulas are taken for the same just if they have the same signs in order up to case, and a text is
taken for the formula that it spells just if it spells the signs as they are printed.
-/

set_option autoImplicit false
set_option relaxedAutoImplicit false

namespace NaturalDeduction

namespace Lexeme

/-- A sign without regard to case: names are in small letters, and a constant is the name of its letter. -/
def caseless : Lexeme → Lexeme
  | name x => .name x.toLower
  | const true => .name "t"
  | const false => .name "f"
  | l => l

def token (l : Lexeme) : Token :=
  ⟨l.kind, (⟨.ascii, false⟩ : Style).lexeme l, 0⟩

end Lexeme

namespace Token

/-- Whether a connective, a negation or a constant is spelled as it is printed: `^ | -> <-> ~ T F`. -/
def isPlain (t : Token) : Bool :=
  match t.kind with
  | .connective op => t.text == Script.ascii.connective op
  | .not => t.text == Script.ascii.negation
  | .const b => t.text == Script.ascii.const b
  | _ => true

/-- What the comparison sees of a token: nothing of a parenthesis, the sign without regard to case if it is spelled as
it is printed, and else the spelling. -/
def caseless? (t : Token) : Option Token :=
  t.sign?.map fun l => if t.isPlain then l.caseless.token else ⟨t.kind, t.text, 0⟩

private theorem role_caseless? (t : Token) :
    t.caseless?.map (fun u => (u.kind.isLeaf, u.kind.isConnective)) =
      t.sign?.map fun l => (l.kind.isLeaf, l.kind.isConnective) := by
  obtain ⟨kind, text, offset⟩ := t
  cases kind with
  | name | leftParen | rightParen | endOfInput => rfl
  | connective op | not =>
    simp only [caseless?, sign?, Option.map_some]
    split <;> rfl
  | const b =>
    simp only [caseless?, sign?, Option.map_some]
    split
    · cases b <;> rfl
    · rfl

private theorem map_role_caseless? (ts : List Token) :
    (ts.filterMap caseless?).map (fun u => (u.kind.isLeaf, u.kind.isConnective)) =
      (ts.filterMap sign?).map fun l => (l.kind.isLeaf, l.kind.isConnective) := by
  rw [List.map_filterMap, List.map_filterMap]
  exact List.filterMap_congr fun t _ => t.role_caseless?

private theorem length_caseless? (ts : List Token) :
    (ts.filterMap caseless?).length = (ts.filterMap sign?).length := by
  have same := congrArg List.length (map_role_caseless? ts)
  rwa [List.length_map, List.length_map] at same

private theorem word_token_injective : Function.Injective fun l : Lexeme => l.token.word := by
  intro l m same
  have kinds : l.kind = m.kind := congrArg Prod.fst same
  have spellings : l.token.text = m.token.text := congrArg Prod.snd same
  cases l with
  | name x =>
    cases m <;> cases kinds
    exact congrArg Lexeme.name spellings
  | leftParen | rightParen | connective op | not | const b =>
    cases m <;> cases kinds
    rfl

private theorem isPlain_token (l : Lexeme) : l.token.isPlain = true := by
  cases l <;> simp [isPlain, Lexeme.token, Lexeme.kind, Style.lexeme]

private theorem isPlain_of_map_word_eq {ts us : List Token} (same : ts.map word = us.map word)
    (plain : ∀ t ∈ ts, t.isPlain = true) : ∀ u ∈ us, u.isPlain = true := by
  intro u member
  have listed : u.word ∈ ts.map word := by
    rw [same]
    exact List.mem_map_of_mem member
  obtain ⟨t, inside, eq⟩ := List.mem_map.1 listed
  have kinds : t.kind = u.kind := congrArg Prod.fst eq
  have texts : t.text = u.text := congrArg Prod.snd eq
  have own := plain t inside
  rwa [isPlain, kinds, texts] at own

private theorem word_caseless? {t : Token} {l : Lexeme} (sign : t.sign? = some l) :
    ∃ u, t.caseless? = some u ∧ (u.word = l.caseless.token.word ↔ t.isPlain = true) := by
  obtain ⟨kind, text, offset⟩ := t
  refine ⟨_, by rw [caseless?, sign]; rfl, ?_⟩
  split
  · rename_i plain
    simp [plain]
  · rename_i other
    refine iff_of_false (fun same => other ?_) other
    cases kind with
    | connective op | not =>
      cases sign
      exact beq_iff_eq.2 (congrArg Prod.snd same)
    | const b =>
      cases sign
      have kinds := congrArg Prod.fst same
      cases b <;> cases kinds
    | name => rfl
    | leftParen | rightParen | endOfInput => cases sign

private theorem map_word_caseless? (ts : List Token) :
    (ts.filterMap caseless?).map word = (ts.filterMap sign?).map (fun l => l.caseless.token.word) ↔
      ∀ t ∈ ts, t.isPlain = true := by
  induction ts with
  | nil => simp
  | cons t ts ih =>
    cases sign : t.sign? with
    | none =>
      have unseen : t.caseless? = none := by rw [caseless?, sign]; rfl
      have plain : t.isPlain = true := by
        obtain ⟨kind, text, offset⟩ := t
        cases kind with
        | name | leftParen | rightParen | endOfInput => rfl
        | connective op | not | const b => cases sign
      simp [unseen, sign, plain, ih]
    | some l =>
      obtain ⟨u, seen, plain⟩ := word_caseless? sign
      simp [seen, sign, ih, plain]

private theorem isNameStart_toLower {c : Char} (h : isNameStart c = true) :
    isNameStart c.toLower = true ∧ c.toLower ≠ 'T' ∧ c.toLower ≠ 'F' := by
  have small := Char.isUpper_toLower_eq_false c
  refine ⟨?_, ?_, ?_⟩
  · simp only [isNameStart, Bool.or_eq_true, beq_iff_eq, Char.isAlpha_toLower_eq_isAlpha] at h ⊢
    rcases h with letter | rfl
    · exact Or.inl letter
    · exact Or.inr rfl
  · intro same
    rw [same] at small
    cases small
  · intro same
    rw [same] at small
    cases small

private theorem isNameChar_toLower {c : Char} (h : isNameChar c = true) : isNameChar c.toLower = true := by
  by_cases start : isNameStart c = true
  · exact isNameChar_of_isNameStart (isNameStart_toLower start).1
  · have small : c.toLower = c := by
      refine Char.toLower_eq_of_not_isUpper fun upper => start ?_
      simp [isNameStart, Char.isAlpha, upper]
    rwa [small]

end Token

namespace Formula

private theorem IsName.toLower {x : String} (h : IsName x) : IsName x.toLower := by
  obtain ⟨c, tail, eq, start, _, _, rest⟩ := h
  obtain ⟨start, notTrue, notFalse⟩ := Token.isNameStart_toLower start
  refine ⟨c.toLower, tail.map Char.toLower, ?_, start, notTrue, notFalse, ?_⟩
  · rw [String.toLower, String.toList_map, eq, List.map_cons]
  · intro d member
    obtain ⟨e, listed, rfl⟩ := List.mem_map.1 member
    exact Token.isNameChar_toLower (rest e listed)

theorem IsName.isNameChar {x : String} (h : IsName x) : ∀ c ∈ x.toList, Token.isNameChar c = true := by
  obtain ⟨c, tail, eq, start, _, _, rest⟩ := h
  intro d member
  rw [eq] at member
  rcases List.mem_cons.1 member with rfl | later
  · exact Token.isNameChar_of_isNameStart start
  · exact rest d later

end Formula

namespace Token

private theorem IsLexed.caseless {t u : Token} (h : t.IsLexed) (seen : t.caseless? = some u) : u.IsLexed := by
  obtain ⟨kind, text, offset⟩ := t
  rcases h with listed | ⟨rfl, word⟩
  · have all : ∀ e ∈ spellings, ∀ u ∈ (caseless? ⟨e.2, String.ofList e.1, 0⟩).toList,
        (u.text.toList, u.kind) ∈ spellings ∨ u.kind = .name ∧ (u.text = "t" ∨ u.text = "f") := by
      decide
    have same : caseless? ⟨kind, text, 0⟩ = some u := seen
    rcases all _ listed u (by simp [same]) with again | ⟨kind, letter | letter⟩
    · exact Or.inl again
    · exact Or.inr ⟨kind, letter ▸ ⟨'t', [], rfl, rfl, by decide, by decide, by simp⟩⟩
    · exact Or.inr ⟨kind, letter ▸ ⟨'f', [], rfl, rfl, by decide, by decide, by simp⟩⟩
  · cases seen
    exact Or.inr ⟨rfl, word.toLower⟩

end Token

namespace Comparison

def kept (cs : List Char) : List Char :=
  (cs.filter isSignificant).flatMap Text.lowerChar

private theorem essence_eq (s : String) : essence s = String.ofList (kept s.toList) := rfl

private theorem sameFormula_iff {s t : String} :
    sameFormula s t = true ↔ kept s.toList = kept t.toList := by
  rw [sameFormula, beq_iff_eq, essence_eq, essence_eq, String.ofList_inj]

@[simp] theorem kept_append (cs ds : List Char) : kept (cs ++ ds) = kept cs ++ kept ds := by
  simp [kept]

private theorem kept_of_white {cs : List Char} (white : ∀ c ∈ cs, Text.isWhiteSpace c = true) :
    kept cs = [] := by
  have none : cs.filter isSignificant = [] := by
    rw [List.filter_eq_nil_iff]
    intro c member
    simp [isSignificant, white c member]
  rw [kept, none]
  rfl

private theorem kept_name {x : String} (isName : Formula.IsName x) : kept x.toList = x.toLower.toList := by
  have word := isName.isNameChar
  have all : x.toList.filter isSignificant = x.toList := by
    rw [List.filter_eq_self]
    intro c member
    have visible := Token.isWhiteSpace_of_isNameChar (word c member)
    have left : c ≠ '(' := by
      rintro rfl
      exact absurd (word _ member) (by decide)
    have right : c ≠ ')' := by
      rintro rfl
      exact absurd (word _ member) (by decide)
    simp [isSignificant, visible, left, right]
  have lower : x.toList.flatMap Text.lowerChar = x.toList.flatMap fun c => [c.toLower] := by
    refine List.flatMap_congr fun c member => ?_
    have code := Token.toNat_of_isNameChar (word c member)
    exact if_pos (by omega)
  rw [kept, all, lower, String.toLower, String.toList_map, List.map_eq_flatMap]

private theorem kept_text {t : Token} (h : t.IsLexed) :
    kept t.text.toList = Token.unspaced t.caseless?.toList := by
  obtain ⟨kind, text, offset⟩ := t
  rcases h with listed | ⟨rfl, word⟩
  · have all : ∀ e ∈ Token.spellings, kept e.1 =
        Token.unspaced (Token.caseless? ⟨e.2, String.ofList e.1, 0⟩).toList := by decide
    have here := all _ listed
    rwa [String.ofList_toList] at here
  · rw [kept_name word]
    exact (List.append_nil _).symm

private theorem kept_of_lexes {cs : List Char} {ts : List Token} (h : Lexes cs ts) :
    kept cs = Token.unspaced (ts.filterMap Token.caseless?) := by
  induction h with
  | blank white => exact kept_of_white white
  | @token gap text rest t ts white first spelled _ ih =>
    have lexed := Token.isLexed_of_lexeme? first spelled
    have own : text = t.text.toList := by rw [spelled, String.toList_ofList]
    rw [kept_append, kept_append, kept_of_white white, ih, own, kept_text lexed]
    cases seen : t.caseless? <;> simp [seen]

end Comparison

namespace Formula

private theorem sign?_token_of_mem_inOrder {f : Formula} (named : f.WellNamed) :
    ∀ l ∈ f.inOrder, l.token.sign? = some l ∧ l.token.IsLexed := by
  induction f with
  | var x =>
    intro l member
    rw [List.mem_singleton.1 member]
    exact ⟨rfl, Or.inr ⟨rfl, named x List.mem_cons_self⟩⟩
  | const b =>
    intro l member
    rw [List.mem_singleton.1 member]
    exact ⟨rfl, Or.inl (by cases b <;> decide)⟩
  | not f ih =>
    intro l member
    rcases List.mem_cons.1 member with rfl | later
    · exact ⟨rfl, Or.inl (by decide)⟩
    · exact ih (wellNamed_not named) l later
  | binary op f g ihf ihg =>
    intro l member
    rcases List.mem_append.1 member with left | right
    · exact ihf (wellNamed_left named) l left
    · rcases List.mem_cons.1 right with rfl | later
      · exact ⟨rfl, Or.inl (by cases op <;> decide)⟩
      · exact ihg (wellNamed_right named) l later

private theorem kept_chars_lexemesAt (required : Level) (f : Formula) :
    Comparison.kept (Style.canonical.chars (f.lexemesAt required)) =
      Comparison.kept (Style.canonical.chars f.lexemes) := by
  rw [lexemesAt_eq]
  split
  · have left : Comparison.kept (Style.canonical.lexeme .leftParen).toList = [] := by decide
    have right : Comparison.kept (Style.canonical.lexeme .rightParen).toList = [] := by decide
    simp only [Style.chars_cons, Style.chars_append, Style.chars_nil, Comparison.kept_append, left,
      right, List.nil_append, List.append_nil]
  · rfl

private theorem kept_chars {f : Formula} (named : f.WellNamed) :
    Comparison.kept (Style.canonical.chars f.lexemes) =
      Token.unspaced (f.inOrder.map fun l => l.caseless.token) := by
  induction f with
  | var x =>
    rw [lexemes_var]
    simpa [Style.lexeme, inOrder, Lexeme.caseless, Lexeme.token] using
      Comparison.kept_name (named x List.mem_cons_self)
  | const b =>
    rw [lexemes_const]
    cases b <;> decide
  | not f ih =>
    have sign : Comparison.kept (Style.canonical.lexeme .not).toList = ['~'] := by decide
    rw [lexemes_not, Style.chars_cons, Comparison.kept_append, kept_chars_lexemesAt,
      ih (wellNamed_not named), sign]
    rfl
  | binary op f g ihf ihg =>
    have sign : Comparison.kept (Style.canonical.lexeme (.connective op)).toList =
        (Script.ascii.connective op).toList := by cases op <;> decide
    rw [lexemes_binary, Style.chars_append, Style.chars_cons, Comparison.kept_append,
      Comparison.kept_append, kept_chars_lexemesAt, kept_chars_lexemesAt, ihf (wellNamed_left named),
      ihg (wellNamed_right named), sign, inOrder, List.map_append, List.map_cons,
      Token.unspaced_append, Token.unspaced_cons]
    rfl

private theorem filterMap_caseless?_token {f : Formula} (named : f.WellNamed) :
    (f.inOrder.map Lexeme.token).filterMap Token.caseless? =
      f.inOrder.map fun l => l.caseless.token := by
  rw [List.filterMap_map, ← List.filterMap_eq_map]
  refine List.filterMap_congr fun l member => ?_
  have sign := (sign?_token_of_mem_inOrder named l member).1
  simp [Token.caseless?, sign, Token.isPlain_token]

end Formula

/-- What is left of a text when texts are compared is what the comparison sees of tokens whose signs are those of a
formula in order. -/
structure Reduces (s : String) (ts : List Token) (f : Formula) : Prop where
  lexed : ∀ t ∈ ts, t.IsLexed
  signs : ts.filterMap Token.sign? = f.inOrder
  kept : Comparison.kept s.toList = Token.unspaced (ts.filterMap Token.caseless?)

namespace Reduces

variable {s t : String} {ts us : List Token} {f g : Formula}

private theorem of_lexes {l : Level} {n : Nat} (lexes : Lexes s.toList ts) (spells : Spells l ts n f) :
    Reduces s ts f where
  lexed := lexes.isLexed
  signs := Formula.inOrder_of_spells spells
  kept := Comparison.kept_of_lexes lexes

/-- The text of a formula, whether or not it is too deep to be read again, is reduced to its signs. -/
private theorem of_text (named : f.WellNamed) : Reduces f.text (f.inOrder.map Lexeme.token) f where
  lexed := by
    intro t member
    obtain ⟨l, listed, rfl⟩ := List.mem_map.1 member
    exact (Formula.sign?_token_of_mem_inOrder named l listed).2
  signs := by
    rw [List.filterMap_map]
    have own := List.filterMap_congr fun l member =>
      (Formula.sign?_token_of_mem_inOrder named l member).1
    exact own.trans List.filterMap_some
  kept := by
    rw [Formula.filterMap_caseless?_token named, ← Formula.kept_chars named, Formula.text,
      Formula.write, Style.toList_write]

private theorem isRow (h : Reduces s ts f) : Token.IsRow (ts.filterMap Token.caseless?) := by
  constructor
  · intro u member
    obtain ⟨t, listed, seen⟩ := List.mem_filterMap.1 member
    exact (h.lexed t listed).caseless seen
  · -- case does not matter to where a sign may stand, so it is enough to look at the signs
    have roles := Token.map_role_caseless? ts
    rw [h.signs] at roles
    have meets : (f.inOrder.map fun l => (l.kind.isLeaf, l.kind.isConnective)).IsChain
        fun r r' => r.1 = r'.2 := (List.isChain_map _).2 f.isChain_inOrder
    rw [← roles] at meets
    exact (List.isChain_map fun u : Token => (u.kind.isLeaf, u.kind.isConnective)).1 meets

private theorem sameFormula_iff (h : Reduces s ts f) (h' : Reduces t us g) :
    Comparison.sameFormula s t = true ↔
      (ts.filterMap Token.caseless?).map Token.word = (us.filterMap Token.caseless?).map Token.word := by
  rw [Comparison.sameFormula_iff, h.kept, h'.kept, Token.unspaced_eq_iff h.isRow h'.isRow]

private theorem length_inOrder_eq (h : Reduces s ts f) (h' : Reduces t us g)
    (same : Comparison.sameFormula s t = true) : f.inOrder.length = g.inOrder.length := by
  have lengths := congrArg List.length ((h.sameFormula_iff h').1 same)
  rw [List.length_map, List.length_map, Token.length_caseless?, Token.length_caseless?] at lengths
  rwa [h.signs, h'.signs] at lengths

private theorem sameFormula_text (h : Reduces s ts f) (named : f.WellNamed) :
    Comparison.sameFormula s f.text = true ↔ ∀ t ∈ ts, t.isPlain = true := by
  rw [h.sameFormula_iff (Reduces.of_text named), Formula.filterMap_caseless?_token named, ← h.signs,
    List.map_map]
  exact Token.map_word_caseless? ts

end Reduces

/-- The connectives, negations and constants of a text are spelled as they are printed: `^ | -> <-> ~ T F`. -/
def PlainlySpelled (s : String) : Prop :=
  ∃ ts, tokenize s = .ok ts ∧ ∀ t ∈ ts, t.isPlain = true

private theorem plainlySpelled_iff {s : String} {ts : List Token} (lexes : Lexes s.toList ts) :
    PlainlySpelled s ↔ ∀ t ∈ ts, t.isPlain = true := by
  obtain ⟨us, stop, tokens, same⟩ := lexes.tokens 0
  have tokens : tokenize s = .ok (us ++ [Token.endAt stop]) := tokens
  constructor
  · rintro ⟨vs, tokens', plain⟩
    cases tokens.symm.trans tokens'
    exact Token.isPlain_of_map_word_eq same fun t member => plain t (List.mem_append_left _ member)
  · intro plain
    refine ⟨_, tokens, fun t member => ?_⟩
    rcases List.mem_append.1 member with own | stops
    · exact Token.isPlain_of_map_word_eq same.symm plain t own
    · rw [List.mem_singleton.1 stops]
      rfl

namespace Comparison

variable {s t : String} {f g : Formula}

/-- What parses is taken for its printed formula just if it spells the signs as they are printed. -/
theorem sameFormula_text_of_parse (parsed : Formula.parse s = .ok f) :
    sameFormula s f.text = true ↔ PlainlySpelled s := by
  obtain ⟨n, ⟨ts, lexes, spells⟩, -, -⟩ := Formula.spelledBy_of_parse parsed
  rw [plainlySpelled_iff lexes]
  exact (Reduces.of_lexes lexes spells).sameFormula_text (Formula.wellNamed_of_parse parsed)

theorem length_inOrder_of_sameFormula (parsed : Formula.parse s = .ok f) (named : g.WellNamed)
    (same : sameFormula s g.text = true) : f.inOrder.length = g.inOrder.length := by
  obtain ⟨n, ⟨ts, lexes, spells⟩, -, -⟩ := Formula.spelledBy_of_parse parsed
  exact (Reduces.of_lexes lexes spells).length_inOrder_eq (Reduces.of_text named) same

/-- Printed formulas are taken for the same just if they have the same signs in order, names and constants being
compared without regard to case, and a text is taken for the formula that it spells if it spells the signs as they are
printed. -/
theorem sameFormula_text_iff_inOrder :
    (∀ f g : Formula, f.WellNamed → g.WellNamed →
      (sameFormula f.text g.text = true ↔
        f.inOrder.map Lexeme.caseless = g.inOrder.map Lexeme.caseless)) ∧
    ∀ (s : String) (f : Formula), Formula.parse s = .ok f → PlainlySpelled s →
      sameFormula s f.text = true := by
  refine ⟨fun f g named named' => ?_, fun s f parsed plain => (sameFormula_text_of_parse parsed).2 plain⟩
  rw [(Reduces.of_text named).sameFormula_iff (Reduces.of_text named'),
    Formula.filterMap_caseless?_token named, Formula.filterMap_caseless?_token named']
  have words (f : Formula) : (f.inOrder.map fun l => l.caseless.token).map Token.word =
      (f.inOrder.map Lexeme.caseless).map fun l => l.token.word := by
    simp only [List.map_map]
    rfl
  rw [words, words]
  exact (List.map_injective_iff.2 Token.word_token_injective).eq_iff

/-- Only the signs count: not where a negation ends, not case, and not redundant parentheses. -/
theorem sameFormula_text_of_negation :
    sameFormula (Formula.binary .implies (.not (.var "P")) (.const true)).text
        (Formula.not (.binary .implies (.var "p") (.var "t"))).text = true ∧
      sameFormula (Formula.not (.var "P")).text (Formula.not (.const true)).text = false ∧
      sameFormula "((P) ^~q )" (Formula.binary .and (.var "P") (.not (.var "q"))).text = true := by
  have first : Formula.WellNamed (.binary .implies (.not (.var "P")) (.const true)) :=
    Formula.wellNamed_of_parse (s := "~P -> T") (by cbv)
  have second : Formula.WellNamed (.not (.binary .implies (.var "p") (.var "t"))) :=
    Formula.wellNamed_of_parse (s := "~(p -> t)") (by cbv)
  have third : Formula.WellNamed (.not (.var "P")) := Formula.wellNamed_of_parse (s := "~P") (by cbv)
  have fourth : Formula.WellNamed (.not (.const true)) := Formula.wellNamed_of_parse (s := "~T") (by cbv)
  refine ⟨(sameFormula_text_iff_inOrder.1 _ _ first second).2 (by cbv), ?_,
    sameFormula_text_iff_inOrder.2 _ _ (by cbv) ⟨_, by cbv, by decide⟩⟩
  exact Bool.eq_false_iff.2 fun same =>
    absurd ((sameFormula_text_iff_inOrder.1 _ _ third fourth).1 same) (by decide +kernel)

end Comparison

end NaturalDeduction
