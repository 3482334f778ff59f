import NaturalDeduction.Formula.Operand
import NaturalDeduction.Proofs.Formula.Spelling

set_option autoImplicit false
set_option relaxedAutoImplicit false

namespace NaturalDeduction

namespace Text

variable {cs : List Char}

private theorem trimChars_eq_rdropWhile (cs : List Char) :
    trimChars cs = (cs.dropWhile isWhiteSpace).rdropWhile isWhiteSpace :=
  rfl

private theorem trimChars_of_ends (first : ∀ c ∈ cs.head?, isWhiteSpace c = false)
    (last : ∀ c ∈ cs.getLast?, isWhiteSpace c = false) : trimChars cs = cs := by
  have front : cs.dropWhile isWhiteSpace = cs :=
    @dropWhile_append_of_stops _ _ [] cs (by simp) first
  rw [trimChars_eq_rdropWhile, front, List.rdropWhile_eq_self_iff]
  intro nonempty
  simpa using last _ (List.getLast?_eq_getLast_of_ne_nil nonempty)

private theorem isWhiteSpace_head_trimChars : ∀ c ∈ (trimChars cs).head?, isWhiteSpace c = false := by
  intro c first
  obtain ⟨more, whole⟩ := List.rdropWhile_prefix isWhiteSpace (cs.dropWhile isWhiteSpace)
  rw [trimChars_eq_rdropWhile] at first
  have begins : c ∈ (cs.dropWhile isWhiteSpace).head? := by
    rw [← whole, List.head?_append, Option.mem_def.1 first]
    rfl
  have visible := List.head?_dropWhile_not isWhiteSpace cs
  rw [Option.mem_def.1 begins] at visible
  exact visible

private theorem isWhiteSpace_last_trimChars : ∀ c ∈ (trimChars cs).getLast?, isWhiteSpace c = false := by
  intro c last
  rw [trimChars, List.getLast?_reverse] at last
  have visible := List.head?_dropWhile_not isWhiteSpace (trimStart cs).reverse
  rw [← trimStart, Option.mem_def.1 last] at visible
  exact visible

theorem trim_trim (s : String) : trim (trim s) = trim s := by
  simp only [trim, String.toList_ofList]
  rw [trimChars_of_ends isWhiteSpace_head_trimChars isWhiteSpace_last_trimChars]

end Text

namespace Token

/-- A lexeme that is a parenthesis is spelled as one, and no other lexeme has a parenthesis in it. -/
theorem text_of_kind {cs : List Char} {l : Lexed} (h : lexeme? cs = some l) :
    (l.kind = .leftParen → l.text = ['(']) ∧ (l.kind = .rightParen → l.text = [')']) ∧
      (l.kind ≠ .leftParen → l.kind ≠ .rightParen → ∀ c ∈ l.text, c ≠ '(' ∧ c ≠ ')') := by
  rcases listed_or_name h with listed | ⟨kind, name⟩
  · have lefts : ∀ e ∈ spellings, e.2 = .leftParen → e.1 = ['('] := by decide
    have rights : ∀ e ∈ spellings, e.2 = .rightParen → e.1 = [')'] := by decide
    have others : ∀ e ∈ spellings, e.2 ≠ .leftParen → e.2 ≠ .rightParen → '(' ∉ e.1 ∧ ')' ∉ e.1 := by
      decide
    refine ⟨lefts _ listed, rights _ listed, ?_⟩
    intro notLeft notRight c member
    obtain ⟨noLeft, noRight⟩ := others _ listed notLeft notRight
    constructor
    · rintro rfl
      exact noLeft member
    · rintro rfl
      exact noRight member
  · refine ⟨fun left => ?_, fun right => ?_, fun _ _ c member => ?_⟩
    · rw [kind] at left
      cases left
    · rw [kind] at right
      cases right
    · have begins := name c member
      constructor <;> (rintro rfl; cases begins)

end Token

namespace Lexes

variable {cs : List Char} {t : Token} {ts : List Token}

private theorem of_cons (h : Lexes cs (t :: ts)) :
    ∃ gap text rest, cs = gap ++ (text ++ rest) ∧ (∀ c ∈ gap, Text.isWhiteSpace c = true) ∧
      Token.lexeme? (text ++ rest) = some ⟨t.kind, text, rest⟩ ∧ Lexes rest ts := by
  cases h with
  | token white first _ after => exact ⟨_, _, _, rfl, white, first, after⟩

private theorem white_of_nil (h : Lexes cs []) : ∀ c ∈ cs, Text.isWhiteSpace c = true := by
  cases h with
  | blank white => exact white

private theorem trim {s : String} (h : Lexes s.toList ts) : Lexes (Text.trim s).toList ts := by
  rw [Text.trim, String.toList_ofList]
  exact h.trimChars

theorem eq_nil (h : Lexes [] ts) : ts = [] := by
  cases ts with
  | nil => rfl
  | cons t ts =>
    obtain ⟨gap, text, rest, empty, _, first, _⟩ := h.of_cons
    have none : text = [] := by
      have both := List.append_eq_nil_iff.1 empty.symm
      exact (List.append_eq_nil_iff.1 both.2).1
    exact absurd none (Token.text_ne_nil first)

theorem of_leftParen (h : Lexes ('(' :: cs) ts) :
    ∃ t us, ts = t :: us ∧ t.kind = .leftParen ∧ Lexes cs us := by
  have visible : Text.isWhiteSpace '(' = false := rfl
  have paren : Token.lexeme? ('(' :: cs) = some ⟨.leftParen, ['('], cs⟩ := rfl
  generalize eq : '(' :: cs = all at h paren
  cases h with
  | blank white =>
    have blank := white '(' (by simp [← eq])
    rw [visible] at blank
    cases blank
  | @token gap text rest t us white first _ after =>
    cases gap with
    | cons c gap =>
      cases eq
      have blank := white '(' List.mem_cons_self
      rw [visible] at blank
      cases blank
    | nil =>
      rw [List.nil_append, first] at paren
      injection paren with lexed
      injection lexed with kind _ rest_eq
      exact ⟨t, us, rfl, kind, rest_eq ▸ after⟩

end Lexes

theorem SpelledBy.isBlank_eq_false {s : String} {f : Formula} {n : Nat} (h : SpelledBy f n s) :
    Text.isBlank s = false := by
  obtain ⟨ts, lexes, spells⟩ := h
  cases ts with
  | nil => exact absurd rfl spells.ne_nil
  | cons t ts =>
    obtain ⟨gap, text, rest, split, _, first, _⟩ := lexes.of_cons
    by_contra blank
    rw [Bool.not_eq_false, Text.isBlank, split, List.all_eq_true] at blank
    obtain ⟨c, member⟩ := List.exists_mem_of_ne_nil text (Token.text_ne_nil first)
    have visible := Token.isWhiteSpace_of_mem_text first c member
    rw [blank c (by simp [member])] at visible
    cases visible

namespace Operand

private theorem closesAtEnd_cons {c : Char} (left : c ≠ '(') (right : c ≠ ')') (n : Nat) (cs : List Char) :
    closesAtEnd n (c :: cs) = closesAtEnd n cs := by
  rw [closesAtEnd.eq_def]
  split <;> simp_all

private theorem closesAtEnd_append {cs : List Char} (plain : ∀ c ∈ cs, c ≠ '(' ∧ c ≠ ')') (n : Nat)
    (rest : List Char) : closesAtEnd n (cs ++ rest) = closesAtEnd n rest := by
  induction cs with
  | nil => rfl
  | cons c cs ih =>
    obtain ⟨left, right⟩ := plain c List.mem_cons_self
    rw [List.cons_append, closesAtEnd_cons left right]
    exact ih fun d member => plain d (List.mem_cons_of_mem _ member)

theorem plain_of_white {gap : List Char} (white : ∀ c ∈ gap, Text.isWhiteSpace c = true) :
    ∀ c ∈ gap, c ≠ '(' ∧ c ≠ ')' := by
  intro c member
  have blank := white c member
  constructor <;> (rintro rfl; cases blank)

variable {cs : List Char} {t : Token} {ts us : List Token} {l : Level} {n : Nat} {f : Formula}

private theorem closesAtEnd_token (h : Lexes cs (t :: us)) :
    ∃ ds, ds <:+ cs ∧ Lexes ds us ∧
      (t.kind = .leftParen → ∀ k, closesAtEnd k cs = closesAtEnd (k + 1) ds) ∧
      (t.kind = .rightParen → closesAtEnd 0 cs = ds.isEmpty ∧
        ∀ k, closesAtEnd (k + 1) cs = closesAtEnd k ds) ∧
      (t.kind ≠ .leftParen → t.kind ≠ .rightParen → ∀ k, closesAtEnd k cs = closesAtEnd k ds) := by
  obtain ⟨gap, text, rest, rfl, white, first, after⟩ := h.of_cons
  obtain ⟨left, right, other⟩ := Token.text_of_kind first
  dsimp only at left right other
  have skip (k : Nat) : closesAtEnd k (gap ++ (text ++ rest)) = closesAtEnd k (text ++ rest) :=
    closesAtEnd_append (plain_of_white white) k _
  refine ⟨rest, ⟨gap ++ text, by simp⟩, after, fun kind k => ?_, fun kind => ⟨?_, fun k => ?_⟩,
    fun notLeft notRight k => ?_⟩
  · rw [skip, left kind]
    rfl
  · rw [skip, right kind]
    rfl
  · rw [skip, right kind]
    rfl
  · rw [skip]
    exact closesAtEnd_append (other notLeft notRight) k rest

/-- The scan goes across the tokens of a formula, whose parentheses are paired. -/
private theorem closesAtEnd_formula (h : Spells l ts n f) (lexes : Lexes cs (ts ++ us)) :
    ∃ ds, ds <:+ cs ∧ Lexes ds us ∧ ∀ k, closesAtEnd k cs = closesAtEnd k ds := by
  induction h generalizing cs us with
  | var kind | const kind =>
    obtain ⟨ds, rest, after, _, _, other⟩ := closesAtEnd_token lexes
    exact ⟨ds, rest, after, other (by simp [kind]) (by simp [kind])⟩
  | @paren opening closing ts n f left _ right ih =>
    have split : opening :: ts ++ [closing] ++ us = opening :: (ts ++ closing :: us) := by simp
    rw [split] at lexes
    obtain ⟨_, rest, inner, opens, _, _⟩ := closesAtEnd_token lexes
    obtain ⟨_, rest', last, across⟩ := ih inner
    obtain ⟨ds, rest'', after, _, closes, _⟩ := closesAtEnd_token last
    refine ⟨ds, rest''.trans (rest'.trans rest), after, ?_⟩
    intro k
    rw [opens left, across, (closes right).2]
  | not kind _ ih =>
    obtain ⟨_, rest, inner, _, _, other⟩ := closesAtEnd_token lexes
    obtain ⟨ds, rest', after, across⟩ := ih inner
    refine ⟨ds, rest'.trans rest, after, ?_⟩
    intro k
    rw [other (by simp [kind]) (by simp [kind]), across]
  | implies _ kind _ ihf ihg | chain _ _ kind _ ihf ihg =>
    rw [List.append_assoc] at lexes
    obtain ⟨_, rest, middle, first⟩ := ihf lexes
    obtain ⟨_, rest', inner, _, _, other⟩ := closesAtEnd_token middle
    obtain ⟨ds, rest'', after, second⟩ := ihg inner
    refine ⟨ds, rest''.trans (rest'.trans rest), after, ?_⟩
    intro k
    rw [first, other (by simp [kind]) (by simp [kind]), second]
  | tighter _ _ ih => exact ih lexes

end Operand

namespace Spells

variable {l : Level} {t : Token} {ts : List Token} {n : Nat} {f : Formula}

private theorem of_leftParen (h : Spells l (t :: ts) n f) (kind : t.kind = .leftParen) :
    ∃ inside m g closing more, Spells .loosest inside m g ∧ closing.kind = .rightParen ∧
      ts = inside ++ closing :: more ∧ (more = [] → Spells .atom (t :: ts) n f) := by
  generalize eq : t :: ts = all at h
  induction h generalizing t ts with
  | var other | const other | not other _ _ =>
    cases eq
    rw [other] at kind
    cases kind
  | @paren opening closing inside n f left within right _ =>
    cases eq
    exact ⟨inside, n, f, closing, [], within, right, rfl, fun _ => .paren left within right⟩
  | @implies u vs us _ _ _ _ left _ _ ih _ | @chain _ u vs us _ _ _ _ _ left _ _ ih _ =>
    cases vs with
    | nil => exact absurd rfl left.ne_nil
    | cons _ vs =>
      cases eq
      obtain ⟨inside, m, g, closing, more, within, right, rfl, _⟩ := ih kind rfl
      refine ⟨inside, m, g, closing, more ++ u :: us, within, right, by simp, ?_⟩
      intro none
      exact absurd none (by simp)
  | tighter _ _ ih => exact ih kind eq

private theorem negation_of_ne_connective (h : Spells l ts n f)
    (none : ∀ t ∈ ts, ∀ op, t.kind ≠ .connective op) : Spells .negation ts n f := by
  have step : Level.negation ≠ .atom := by decide
  induction h with
  | var kind => exact .tighter step (.var kind)
  | const kind => exact .tighter step (.const kind)
  | paren left within right _ => exact .tighter step (.paren left within right)
  | not kind operand _ => exact .not kind operand
  | implies _ kind _ _ _ | chain _ _ kind _ _ _ => exact absurd kind (none _ (by simp) _)
  | tighter _ _ ih => exact ih none

end Spells

namespace Operand

theorem holdsConnective_append {cs : List Char} (h : holdsConnective cs = true) (before : List Char) :
    holdsConnective (before ++ cs) = true := by
  induction before with
  | nil => exact h
  | cons c before ih =>
    rw [List.cons_append, holdsConnective, ih]
    exact Bool.or_true _

theorem holdsConnective_of_spelling {spelling : List Char} (listed : spelling ∈ spellings)
    (rest : List Char) : holdsConnective (spelling ++ rest) = true := by
  have all : ∀ s ∈ spellings, s ≠ [] := by decide
  cases spelling with
  | nil => exact absurd rfl (all _ listed)
  | cons c spelling =>
    have found : (spellings.any (·.isPrefixOf (c :: (spelling ++ rest)))) = true :=
      List.any_eq_true.2 ⟨_, listed, List.isPrefixOf_iff_prefix.2 ⟨rest, rfl⟩⟩
    rw [List.cons_append, holdsConnective, found]
    rfl

theorem holdsConnective_of_lexes {cs : List Char} {ts : List Token} {op : Connective}
    (h : Lexes cs ts) : (∃ t ∈ ts, t.kind = .connective op) → holdsConnective cs = true := by
  have covered : (Token.spellings.all fun e =>
      e.2 != .connective op || spellings.contains e.1) = true := by
    cases op <;> decide
  induction h with
  | blank _ => simp
  | @token gap text rest t ts _ first _ _ ih =>
    rintro ⟨u, member, kind⟩
    apply holdsConnective_append
    rcases List.mem_cons.1 member with rfl | later
    · rcases Token.listed_or_name first with listed | ⟨name, _⟩
      · have here := List.all_eq_true.1 covered _ listed
        simp only [kind, bne_self_eq_false, Bool.false_or] at here
        exact holdsConnective_of_spelling (List.contains_iff_mem.1 here) rest
      · rw [kind] at name
        cases name
    · exact holdsConnective_append (ih ⟨u, later, kind⟩) text

theorem atom_of_enclosed {cs : List Char} {ts : List Token} {l : Level} {n : Nat} {f : Formula}
    (enclosed : closesAtEnd 0 cs = true) (lexes : Lexes ('(' :: cs) ts) (h : Spells l ts n f) :
    Spells .atom ts n f := by
  obtain ⟨t, us, rfl, kind, inner⟩ := lexes.of_leftParen
  obtain ⟨inside, _, _, closing, more, within, right, rfl, atom⟩ := h.of_leftParen kind
  -- The scan goes across what is inside, so it ends where `closing` stands.
  obtain ⟨ds, _, last, across⟩ := closesAtEnd_formula within inner
  obtain ⟨es, _, after, _, closes, _⟩ := closesAtEnd_token last
  rw [across, (closes right).1] at enclosed
  rw [List.isEmpty_iff.1 enclosed] at after
  exact atom after.eq_nil

variable {s : String} {ts : List Token} {n : Nat} {f : Formula}

private theorem ofText_eq (s : String) :
    ofText s = if mentionsConnective (Text.trim s) && !isEnclosed (Text.trim s)
      then "(" ++ Text.trim s ++ ")" else Text.trim s :=
  rfl

/-- The operand that a text gives spells the formula of the text, where an operand of a negation stands. -/
theorem lexes_ofText (lexes : Lexes s.toList ts) (h : Spells .loosest ts n f) :
    ∃ us m, Lexes (ofText s).toList us ∧ Spells .negation us m f := by
  have trimmed := lexes.trim
  rw [ofText_eq]
  split
  · have whole := trimmed.parens .nil
    refine ⟨_, n + 1, ?_, h.parens .negation⟩
    simpa using whole
  · rename_i bare
    refine ⟨ts, n, trimmed, ?_⟩
    by_cases mentions : mentionsConnective (Text.trim s) = true
    · have enclosed : isEnclosed (Text.trim s) = true := by simpa [mentions] using bare
      unfold isEnclosed at enclosed
      split at enclosed
      · rename_i cs eq
        have again := trimmed.trimChars
        rw [eq] at again
        exact (atom_of_enclosed enclosed again h).loosen (by decide)
      · cases enclosed
    · refine h.negation_of_ne_connective fun t member op kind => mentions ?_
      exact holdsConnective_of_lexes trimmed ⟨t, member, kind⟩

theorem spelledBy_ofText (h : SpelledBy f n s) : ∃ m, SpelledBy f m (ofText s) := by
  obtain ⟨ts, lexes, spells⟩ := h
  obtain ⟨us, m, operand, inside⟩ := lexes_ofText lexes spells
  exact ⟨m, us, operand, inside.whole⟩

private theorem trimChars_parens (cs : List Char) :
    Text.trimChars ('(' :: cs ++ [')']) = '(' :: cs ++ [')'] := by
  refine Text.trimChars_of_ends ?_ ?_
  · rintro c ⟨rfl⟩
    rfl
  · intro c last
    rw [List.getLast?_concat] at last
    cases last
    rfl

theorem toList_parens (s : String) : ("(" ++ s ++ ")").toList = '(' :: s.toList ++ [')'] := by
  simp

private theorem trim_parens (s : String) : Text.trim ("(" ++ s ++ ")") = "(" ++ s ++ ")" := by
  rw [Text.trim, toList_parens, trimChars_parens, ← toList_parens, String.ofList_toList]

theorem isEnclosed_parens (h : SpelledBy f n s) : isEnclosed ("(" ++ s ++ ")") = true := by
  obtain ⟨ts, lexes, spells⟩ := h
  have inside := lexes.append Token.isSeparator_rightParen Lexes.nil.rightParen
  obtain ⟨ds, rest, last, across⟩ := closesAtEnd_formula spells inside
  obtain ⟨es, rest', after, _, closes, _⟩ := closesAtEnd_token last
  have done : es = [] := by
    rcases List.suffix_concat_iff.1 (rest'.trans rest) with none | ⟨front, rfl, _⟩
    · exact none
    · have blank := after.white_of_nil ')' (by simp)
      cases blank
  rw [isEnclosed, toList_parens, trimChars_parens]
  change closesAtEnd 0 (s.toList ++ [')']) = true
  rw [across, (closes rfl).1, done]
  rfl

/-- An operand is not put into parentheses again. -/
theorem ofText_ofText (h : SpelledBy f n s) : ofText (ofText s) = ofText s := by
  have trimmed : SpelledBy f n (Text.trim s) := by
    obtain ⟨ts, lexes, spells⟩ := h
    exact ⟨ts, lexes.trim, spells⟩
  by_cases wraps : (mentionsConnective (Text.trim s) && !isEnclosed (Text.trim s)) = true
  · have once : ofText s = "(" ++ Text.trim s ++ ")" := by rw [ofText_eq, if_pos wraps]
    have enclosed := isEnclosed_parens trimmed
    rw [once, ofText_eq, trim_parens, if_neg (by simp [enclosed])]
  · have once : ofText s = Text.trim s := by rw [ofText_eq, if_neg wraps]
    rw [once, ofText_eq, Text.trim_trim, if_neg wraps]

end Operand

end NaturalDeduction
