import NaturalDeduction.Proofs.Lists
import NaturalDeduction.Token.Lexer

set_option autoImplicit false
set_option relaxedAutoImplicit false

namespace NaturalDeduction

namespace Token

theorem fixedLexeme?_eq_some {table : List (List Char × TokenKind)} {cs : List Char} {l : Lexed} :
    fixedLexeme? table cs = some l ↔
      l.text ++ l.rest = cs ∧ ∃ before after, table = before ++ (l.text, l.kind) :: after ∧
        ∀ e ∈ before, ¬e.1 <+: cs := by
  unfold fixedLexeme?
  rw [List.findSome?_eq_some_iff]
  constructor
  · rintro ⟨before, ⟨spelling, kind⟩, after, split, found, earlier⟩
    dsimp only at found
    by_cases starts : spelling <+: cs
    · rw [if_pos (List.isPrefixOf_iff_prefix.2 starts)] at found
      cases found
      refine ⟨?_, before, after, split, fun e member begins => ?_⟩
      · obtain ⟨rest, rfl⟩ := starts
        simp
      · have := earlier e member
        simp [begins] at this
    · rw [if_neg (fun h => starts (List.isPrefixOf_iff_prefix.1 h))] at found
      cases found
  · rintro ⟨rfl, before, after, split, earlier⟩
    refine ⟨before, (l.text, l.kind), after, split, by simp, ?_⟩
    intro e member
    simp [earlier e member]

theorem fixedLexeme?_eq_none {table : List (List Char × TokenKind)} {cs : List Char} :
    fixedLexeme? table cs = none ↔ ∀ e ∈ table, ¬e.1 <+: cs := by
  unfold fixedLexeme?
  rw [List.findSome?_eq_none_iff]
  refine forall_congr' fun e => forall_congr' fun _ => ?_
  simp

theorem name?_eq_some {cs : List Char} {l : Lexed} :
    name? cs = some l ↔
      l.kind = .name ∧ l.text ++ l.rest = cs ∧
        (∃ c tail, l.text = c :: tail ∧ isNameStart c = true ∧ ∀ d ∈ tail, isNameChar d = true) ∧
        ∀ d ∈ l.rest.head?, isNameChar d = false := by
  constructor
  · intro h
    cases cs with
    | nil => cases h
    | cons c cs =>
      by_cases start : isNameStart c = true
      · rw [name?, if_pos start] at h
        cases h
        refine ⟨rfl, by simp, ⟨c, _, rfl, start, fun d member => ?_⟩, fun d first => ?_⟩
        · exact (List.all_eq_true.1 List.all_takeWhile) d member
        · have stops := List.head?_dropWhile_not isNameChar cs
          rw [Option.mem_def.1 first] at stops
          simpa using stops
      · rw [name?, if_neg start] at h
        cases h
  · obtain ⟨kind, text, rest⟩ := l
    rintro ⟨rfl, rfl, ⟨c, tail, rfl, start, name⟩, stops⟩
    simp only [List.cons_append, name?, start, if_true, takeWhile_append_of_stops name stops,
      dropWhile_append_of_stops name stops]

theorem lexeme?_eq_some {cs : List Char} {l : Lexed} :
    lexeme? cs = some l ↔
      fixedLexeme? spellings cs = some l ∨ (∀ e ∈ spellings, ¬e.1 <+: cs) ∧ name? cs = some l := by
  rw [lexeme?, Option.or_eq_some_iff, fixedLexeme?_eq_none]

theorem lexeme?_append {cs : List Char} {l : Lexed} (h : lexeme? cs = some l) :
    l.text ++ l.rest = cs := by
  rcases lexeme?_eq_some.1 h with fixed | ⟨_, named⟩
  · exact (fixedLexeme?_eq_some.1 fixed).1
  · exact (name?_eq_some.1 named).2.1

theorem toNat_of_isNameChar {c : Char} (h : isNameChar c = true) :
    (48 ≤ c.toNat ∧ c.toNat ≤ 57) ∨ (65 ≤ c.toNat ∧ c.toNat ≤ 90) ∨ c.toNat = 95 ∨
      (97 ≤ c.toNat ∧ c.toNat ≤ 122) := by
  simp only [isNameChar, Char.isAlphanum, Char.isAlpha, Char.isUpper, Char.isLower, Char.isDigit,
    Bool.or_eq_true, Bool.and_eq_true, decide_eq_true_eq, beq_iff_eq, ge_iff_le,
    UInt32.le_iff_toNat_le] at h
  rcases h with ((upper | lower) | digit) | rfl
  · exact Or.inr (Or.inl upper)
  · exact Or.inr (Or.inr (Or.inr lower))
  · exact Or.inl digit
  · exact Or.inr (Or.inr (Or.inl rfl))

theorem isWhiteSpace_of_isNameChar {c : Char} (h : isNameChar c = true) :
    Text.isWhiteSpace c = false := by
  have code := toNat_of_isNameChar h
  simp only [Text.isWhiteSpace, Bool.or_eq_false_iff, Bool.and_eq_false_iff, decide_eq_false_iff_not,
    beq_eq_false_iff_ne]
  omega

theorem isNameChar_of_isNameStart {c : Char} (h : isNameStart c = true) : isNameChar c = true := by
  simp only [isNameStart, isNameChar, Char.isAlphanum, Bool.or_eq_true] at h ⊢
  exact h.imp Or.inl id

theorem listed_or_name {cs : List Char} {l : Lexed} (h : lexeme? cs = some l) :
    (l.text, l.kind) ∈ spellings ∨ l.kind = .name ∧ ∀ c ∈ l.text, isNameChar c = true := by
  rcases lexeme?_eq_some.1 h with fixed | ⟨_, named⟩
  · obtain ⟨_, before, after, split, _⟩ := fixedLexeme?_eq_some.1 fixed
    exact Or.inl (by simp [split])
  · obtain ⟨kind, _, ⟨d, tail, eq, start, name⟩, _⟩ := name?_eq_some.1 named
    refine Or.inr ⟨kind, ?_⟩
    intro c member
    rw [eq] at member
    rcases List.mem_cons.1 member with rfl | later
    · exact isNameChar_of_isNameStart start
    · exact name c later

theorem isWhiteSpace_of_mem_text {cs : List Char} {l : Lexed} (h : lexeme? cs = some l) :
    ∀ c ∈ l.text, Text.isWhiteSpace c = false := by
  intro c member
  rcases listed_or_name h with listed | ⟨_, name⟩
  · have all : (spellings.all fun e => e.1.all (!Text.isWhiteSpace ·)) = true := by decide
    have visible := List.all_eq_true.1 (List.all_eq_true.1 all _ listed) c member
    simpa using visible
  · exact isWhiteSpace_of_isNameChar (name c member)

theorem text_ne_nil {cs : List Char} {l : Lexed} (h : lexeme? cs = some l) : l.text ≠ [] := by
  intro empty
  have shorter := lexeme?_length h
  rw [← lexeme?_append h, empty] at shorter
  exact Nat.lt_irrefl _ shorter

private theorem kind_ne_endOfInput {cs : List Char} {l : Lexed} (h : lexeme? cs = some l) :
    l.kind ≠ .endOfInput := by
  rcases listed_or_name h with listed | ⟨kind, _⟩
  · have all : ∀ e ∈ spellings, e.2 ≠ .endOfInput := by decide
    exact all _ listed
  · rw [kind]
    exact TokenKind.noConfusion

private theorem lexeme?_of_rest {kind : TokenKind} {text rest rest' : List Char}
    (h : lexeme? (text ++ rest) = some ⟨kind, text, rest⟩)
    (begins : ∀ e ∈ spellings, e.1 <+: text ++ rest' → e.1 <+: text ++ rest)
    (stops : (∀ d ∈ rest.head?, isNameChar d = false) → ∀ d ∈ rest'.head?, isNameChar d = false) :
    lexeme? (text ++ rest') = some ⟨kind, text, rest'⟩ := by
  rw [lexeme?_eq_some]
  rcases lexeme?_eq_some.1 h with fixed | ⟨none, named⟩
  · obtain ⟨_, before, after, split, earlier⟩ := fixedLexeme?_eq_some.1 fixed
    refine Or.inl (fixedLexeme?_eq_some.2 ⟨rfl, before, after, split, fun e member now => ?_⟩)
    exact earlier e member (begins e (by rw [split]; simp [member]) now)
  · obtain ⟨isName, _, word, ends⟩ := name?_eq_some.1 named
    refine Or.inr ⟨fun e member now => none e member (begins e member now), ?_⟩
    exact name?_eq_some.2 ⟨isName, rfl, word, stops ends⟩

theorem lexeme?_of_append {kind : TokenKind} {text rest more : List Char}
    (h : lexeme? (text ++ (rest ++ more)) = some ⟨kind, text, rest ++ more⟩) :
    lexeme? (text ++ rest) = some ⟨kind, text, rest⟩ := by
  refine lexeme?_of_rest h (fun e _ begins => ?_) fun ends d first => ?_
  · exact begins.trans ⟨more, by simp⟩
  · exact ends d (by simp [List.head?_append, Option.mem_def.1 first])

/-- A character that no lexeme before it goes on with. -/
def IsSeparator (d : Char) : Prop :=
  isNameChar d = false ∧ ∀ e ∈ spellings, d ∉ e.1.tail

theorem isSeparator_rightParen : IsSeparator ')' := by
  unfold IsSeparator
  decide

theorem isSeparator_blank : IsSeparator ' ' := by
  unfold IsSeparator
  decide

private theorem prefix_of_prefix_cons {d : Char} {spelling cs more : List Char}
    (separate : d ∉ spelling.tail) (nonempty : cs ≠ []) (h : spelling <+: cs ++ d :: more) :
    spelling <+: cs := by
  obtain ⟨after, eq⟩ := h
  rcases List.append_eq_append_iff.1 eq with ⟨between, rfl, _⟩ | ⟨between, rfl, rest⟩
  · exact List.prefix_append _ _
  · cases between with
    | nil => simp
    | cons c between =>
      cases cs with
      | nil => exact absurd rfl nonempty
      | cons a cs =>
        cases rest
        simp at separate

private theorem lexeme?_of_separator {kind : TokenKind} {text rest more : List Char} {d : Char}
    (h : lexeme? (text ++ rest) = some ⟨kind, text, rest⟩) (separator : IsSeparator d) :
    lexeme? (text ++ (rest ++ d :: more)) = some ⟨kind, text, rest ++ d :: more⟩ := by
  refine lexeme?_of_rest h (fun e member begins => ?_) fun ends c first => ?_
  · exact prefix_of_prefix_cons (separator.2 e member) (by simp [text_ne_nil h]) (by simpa using begins)
  · cases rest with
    | nil =>
      cases first
      exact separator.1
    | cons a rest => exact ends c first

/-- How a text begins: it is blank, or after white space there stands a lexeme or a character that begins
none. -/
inductive Front : List Char → Prop
  | blank {cs : List Char} (white : ∀ c ∈ cs, Text.isWhiteSpace c = true) : Front cs
  | lexeme {gap text rest : List Char} {kind : TokenKind}
      (white : ∀ c ∈ gap, Text.isWhiteSpace c = true)
      (found : lexeme? (text ++ rest) = some ⟨kind, text, rest⟩) : Front (gap ++ (text ++ rest))
  | unknown {gap rest : List Char} {c : Char} (white : ∀ d ∈ gap, Text.isWhiteSpace d = true)
      (visible : Text.isWhiteSpace c = false) (unknown : lexeme? (c :: rest) = none) :
      Front (gap ++ c :: rest)

theorem front (cs : List Char) : Front cs := by
  have white : ∀ c ∈ cs.takeWhile Text.isWhiteSpace, Text.isWhiteSpace c = true :=
    List.all_eq_true.1 List.all_takeWhile
  have split := List.takeWhile_append_dropWhile (p := Text.isWhiteSpace) (l := cs)
  have visible := List.head?_dropWhile_not Text.isWhiteSpace cs
  generalize cs.takeWhile Text.isWhiteSpace = gap at white split
  generalize cs.dropWhile Text.isWhiteSpace = body at split visible
  subst split
  cases body with
  | nil =>
    rw [List.append_nil]
    exact .blank white
  | cons c body =>
    cases found : lexeme? (c :: body) with
    | none => exact .unknown white (by simpa using visible) found
    | some l =>
      have parts := lexeme?_append found
      rw [← parts] at found ⊢
      exact .lexeme white found

theorem length_lt_of_lexeme? {text rest : List Char} {kind : TokenKind} (gap : List Char)
    (h : lexeme? (text ++ rest) = some ⟨kind, text, rest⟩) :
    rest.length < (gap ++ (text ++ rest)).length := by
  have shorter := lexeme?_length h
  dsimp only at shorter
  rw [List.length_append]
  omega

end Token

/-- The characters `cs` are the lexemes of the tokens `ts` with white space before and after each; the
offsets of the tokens do not matter. -/
inductive Lexes : List Char → List Token → Prop
  | blank {cs : List Char} (white : ∀ c ∈ cs, Text.isWhiteSpace c = true) : Lexes cs []
  | token {gap text rest : List Char} {t : Token} {ts : List Token}
      (white : ∀ c ∈ gap, Text.isWhiteSpace c = true)
      (first : Token.lexeme? (text ++ rest) = some ⟨t.kind, text, rest⟩)
      (spelled : t.text = String.ofList text) (after : Lexes rest ts) :
      Lexes (gap ++ (text ++ rest)) (t :: ts)

namespace Lexes

variable {cs ds : List Char} {ts us : List Token}

theorem nil : Lexes [] [] :=
  blank (by simp)

theorem cons {text rest : List Char} {t : Token}
    (first : Token.lexeme? (text ++ rest) = some ⟨t.kind, text, rest⟩)
    (spelled : t.text = String.ofList text) (after : Lexes rest ts) :
    Lexes (text ++ rest) (t :: ts) := by
  have none : ∀ c ∈ [], Text.isWhiteSpace c = true := by simp
  exact token none first spelled after

theorem leftParen (h : Lexes cs ts) : Lexes ('(' :: cs) (⟨.leftParen, "(", 0⟩ :: ts) := by
  have first : Token.lexeme? (['('] ++ cs) = some ⟨.leftParen, ['('], cs⟩ := rfl
  have spelled : "(" = String.ofList ['('] := rfl
  exact @cons ts ['('] cs ⟨.leftParen, "(", 0⟩ first spelled h

theorem rightParen (h : Lexes cs ts) : Lexes (')' :: cs) (⟨.rightParen, ")", 0⟩ :: ts) := by
  have first : Token.lexeme? ([')'] ++ cs) = some ⟨.rightParen, [')'], cs⟩ := rfl
  have spelled : ")" = String.ofList [')'] := rfl
  exact @cons ts [')'] cs ⟨.rightParen, ")", 0⟩ first spelled h

theorem isEnd_eq_false (h : Lexes cs ts) : ∀ t ∈ ts, t.isEnd = false := by
  induction h with
  | blank _ => simp
  | @token gap text rest t ts _ first _ _ ih =>
    intro u member
    rcases List.mem_cons.1 member with rfl | later
    · simpa [Token.isEnd] using Token.kind_ne_endOfInput first
    · exact ih u later

theorem white_append {gap : List Char} (white : ∀ c ∈ gap, Text.isWhiteSpace c = true)
    (h : Lexes cs ts) : Lexes (gap ++ cs) ts := by
  cases h with
  | blank white' =>
    refine blank ?_
    intro c member
    rcases List.mem_append.1 member with left | right
    · exact white c left
    · exact white' c right
  | token white' first spelled after =>
    rw [← List.append_assoc]
    refine token ?_ first spelled after
    intro c member
    rcases List.mem_append.1 member with left | right
    · exact white c left
    · exact white' c right

theorem append {d : Char} (separator : Token.IsSeparator d) (h : Lexes cs ts)
    (after : Lexes (d :: ds) us) : Lexes (cs ++ d :: ds) (ts ++ us) := by
  induction h with
  | blank white => exact after.white_append white
  | @token gap text rest t ts white first spelled _ ih =>
    rw [List.append_assoc, List.append_assoc]
    exact token white (Token.lexeme?_of_separator first separator) spelled ih

theorem parens (h : Lexes cs ts) (after : Lexes ds us) :
    Lexes ('(' :: cs ++ ')' :: ds) (⟨.leftParen, "(", 0⟩ :: ts ++ ⟨.rightParen, ")", 0⟩ :: us) := by
  have inside := h.append Token.isSeparator_rightParen after.rightParen
  exact inside.leftParen

private theorem of_white_cons {c : Char} (white : Text.isWhiteSpace c = true) (h : Lexes (c :: cs) ts) :
    Lexes cs ts := by
  generalize eq : c :: cs = all at h
  cases h with
  | blank white' =>
    subst eq
    exact blank fun d member => white' d (List.mem_cons_of_mem _ member)
  | @token gap text rest t ts white' first spelled after =>
    cases gap with
    | nil =>
      cases text with
      | nil => exact absurd rfl (Token.text_ne_nil first)
      | cons d text =>
        cases eq
        have := Token.isWhiteSpace_of_mem_text first c List.mem_cons_self
        rw [white] at this
        cases this
    | cons d gap =>
      cases eq
      exact token (fun e member => white' e (List.mem_cons_of_mem _ member)) first spelled after

private theorem of_concat_white {c : Char} (white : Text.isWhiteSpace c = true) (h : Lexes (cs ++ [c]) ts) :
    Lexes cs ts := by
  generalize eq : cs ++ [c] = all at h
  induction h generalizing cs with
  | blank white' =>
    subst eq
    exact blank fun d member => white' d (List.mem_append_left _ member)
  | @token gap text rest t ts white' first spelled _ ih =>
    rcases List.eq_nil_or_concat rest with rfl | ⟨rest, d, rfl⟩
    · have last := congrArg List.getLast? eq
      have member : c ∈ text := by
        refine List.mem_of_getLast? ?_
        simpa [List.getLast?_append, Token.text_ne_nil first] using last.symm
      have := Token.isWhiteSpace_of_mem_text first c member
      rw [white] at this
      cases this
    · rw [List.concat_eq_append, ← List.append_assoc, ← List.append_assoc] at eq
      obtain ⟨rfl, same⟩ := List.append_inj' eq rfl
      cases same
      rw [List.append_assoc]
      rw [List.concat_eq_append] at first ih
      exact token white' (Token.lexeme?_of_append first) spelled (ih rfl)

private theorem trimStart (h : Lexes cs ts) : Lexes (Text.trimStart cs) ts := by
  induction cs with
  | nil => exact h
  | cons c cs ih =>
    by_cases white : Text.isWhiteSpace c = true
    · rw [Text.trimStart, List.dropWhile_cons_of_pos white]
      exact ih (h.of_white_cons white)
    · rwa [Text.trimStart, List.dropWhile_cons_of_neg white]

private theorem trimEnd (h : Lexes cs.reverse ts) : Lexes (Text.trimStart cs).reverse ts := by
  induction cs with
  | nil => exact h
  | cons c cs ih =>
    by_cases white : Text.isWhiteSpace c = true
    · rw [Text.trimStart, List.dropWhile_cons_of_pos white]
      rw [List.reverse_cons] at h
      exact ih (h.of_concat_white white)
    · rwa [Text.trimStart, List.dropWhile_cons_of_neg white]

theorem trimChars (h : Lexes cs ts) : Lexes (Text.trimChars cs) ts := by
  refine trimEnd ?_
  rw [List.reverse_reverse]
  exact h.trimStart

end Lexes

namespace Scanner

private theorem tokens_eq (s : Scanner) :
    s.tokens =
      match s.next? with
      | none => .ok []
      | some (.error e, _) => .error e
      | some (.ok t, s') => s'.tokens.map (t :: ·) := by
  rw [tokens]
  split <;> rename_i h <;> simp only [h]
  rename_i s'
  cases s'.tokens <;> rfl

private theorem skipWhiteSpace_append {gap cs : List Char}
    (white : ∀ c ∈ gap, Text.isWhiteSpace c = true)
    (stops : ∀ c ∈ cs.head?, Text.isWhiteSpace c = false) (offset : Nat) :
    skipWhiteSpace ⟨gap ++ cs, offset, false⟩ = ⟨cs, offset + Text.byteLength gap, false⟩ := by
  simp only [skipWhiteSpace, Text.trimStart, takeWhile_append_of_stops white stops,
    dropWhile_append_of_stops white stops]

theorem next?_blank {cs : List Char} (white : ∀ c ∈ cs, Text.isWhiteSpace c = true)
    (offset : Nat) :
    next? ⟨cs, offset, false⟩ =
      some (.ok (Token.endAt (offset + Text.byteLength cs)),
        ⟨[], offset + Text.byteLength cs, true⟩) := by
  have skipped : skipWhiteSpace ⟨cs ++ [], offset, false⟩ =
      ⟨[], offset + Text.byteLength cs, false⟩ :=
    skipWhiteSpace_append white (by simp) offset
  rw [List.append_nil] at skipped
  rw [next?, skipped]
  rfl

theorem next?_lexeme {gap text rest : List Char} {kind : TokenKind}
    (white : ∀ c ∈ gap, Text.isWhiteSpace c = true)
    (first : Token.lexeme? (text ++ rest) = some ⟨kind, text, rest⟩) (offset : Nat) :
    next? ⟨gap ++ (text ++ rest), offset, false⟩ =
      some (.ok ⟨kind, String.ofList text, offset + Text.byteLength gap⟩,
        ⟨rest, offset + Text.byteLength gap + Text.byteLength text, false⟩) := by
  cases text with
  | nil => exact absurd rfl (Token.text_ne_nil first)
  | cons c text =>
    have stops : ∀ d ∈ (c :: text ++ rest).head?, Text.isWhiteSpace d = false := by
      intro d member
      cases member
      exact Token.isWhiteSpace_of_mem_text first c List.mem_cons_self
    rw [next?, skipWhiteSpace_append white stops]
    rw [List.cons_append] at first
    simp only [read, List.cons_append, first]
    rfl

theorem next?_of_unknown {gap cs : List Char} {c : Char}
    (white : ∀ d ∈ gap, Text.isWhiteSpace d = true) (visible : Text.isWhiteSpace c = false)
    (unknown : Token.lexeme? (c :: cs) = none) (offset : Nat) :
    next? ⟨gap ++ c :: cs, offset, false⟩ =
      some (.error ⟨c, offset + Text.byteLength gap⟩,
        ⟨c :: cs, offset + Text.byteLength gap, true⟩) := by
  have stops : ∀ d ∈ (c :: cs).head?, Text.isWhiteSpace d = false := by
    intro d member
    cases member
    exact visible
  rw [next?, skipWhiteSpace_append white stops]
  simp only [read, unknown]
  rfl

theorem tokens_blank {cs : List Char} (white : ∀ c ∈ cs, Text.isWhiteSpace c = true)
    (offset : Nat) :
    tokens ⟨cs, offset, false⟩ = .ok [Token.endAt (offset + Text.byteLength cs)] := by
  have done : tokens ⟨[], offset + Text.byteLength cs, true⟩ = .ok [] := by
    rw [tokens_eq, next?_of_finished rfl]
  rw [tokens_eq, next?_blank white]
  exact congrArg (Except.map _) done

theorem tokens_lexeme {gap text rest : List Char} {kind : TokenKind}
    (white : ∀ c ∈ gap, Text.isWhiteSpace c = true)
    (first : Token.lexeme? (text ++ rest) = some ⟨kind, text, rest⟩) (offset : Nat) :
    tokens ⟨gap ++ (text ++ rest), offset, false⟩ =
      (tokens ⟨rest, offset + Text.byteLength gap + Text.byteLength text, false⟩).map
        (⟨kind, String.ofList text, offset + Text.byteLength gap⟩ :: ·) := by
  rw [tokens_eq, next?_lexeme white first]

theorem tokens_of_unknown {gap cs : List Char} {c : Char}
    (white : ∀ d ∈ gap, Text.isWhiteSpace d = true) (visible : Text.isWhiteSpace c = false)
    (unknown : Token.lexeme? (c :: cs) = none) (offset : Nat) :
    tokens ⟨gap ++ c :: cs, offset, false⟩ = .error ⟨c, offset + Text.byteLength gap⟩ := by
  rw [tokens_eq, next?_of_unknown white visible unknown]

/-- What the scanner finds from a place on is what the text there is made of. -/
theorem lexes_of_tokens {cs : List Char} {offset : Nat} {us : List Token}
    (h : tokens ⟨cs, offset, false⟩ = .ok us) :
    ∃ ts stop, us = ts ++ [Token.endAt stop] ∧ Lexes cs ts := by
  induction size : cs.length using Nat.strongRecOn generalizing cs offset us with
  | ind n ih =>
    subst size
    cases Token.front cs with
    | blank white =>
      rw [tokens_blank white] at h
      cases h
      exact ⟨[], _, rfl, .blank white⟩
    | @lexeme gap text rest kind white found =>
      have smaller := Token.length_lt_of_lexeme? gap found
      rw [tokens_lexeme white found] at h
      cases later : tokens ⟨rest, offset + Text.byteLength gap + Text.byteLength text, false⟩ with
      | error e =>
        rw [later] at h
        cases h
      | ok vs =>
        rw [later] at h
        cases h
        obtain ⟨ts, stop, rfl, after⟩ := ih _ smaller later rfl
        exact ⟨_ :: ts, stop, rfl, .token white found rfl after⟩
    | unknown white visible unknown =>
      rw [tokens_of_unknown white visible unknown] at h
      cases h

end Scanner

/-- What the grammar sees of a token. -/
def Token.word (t : Token) : TokenKind × String :=
  (t.kind, t.text)

/-- The scanner finds the tokens that a text is made of. -/
theorem Lexes.tokens {cs : List Char} {ts : List Token} (h : Lexes cs ts) (offset : Nat) :
    ∃ us stop, Scanner.tokens ⟨cs, offset, false⟩ = .ok (us ++ [Token.endAt stop]) ∧
      us.map Token.word = ts.map Token.word := by
  induction h generalizing offset with
  | blank white => exact ⟨[], _, Scanner.tokens_blank white offset, rfl⟩
  | @token gap text rest t ts white first spelled _ ih =>
    obtain ⟨us, stop, later, same⟩ :=
      ih (offset + Text.byteLength gap + Text.byteLength text)
    refine ⟨⟨t.kind, String.ofList text, offset + Text.byteLength gap⟩ :: us, stop, ?_, ?_⟩
    · rw [Scanner.tokens_lexeme white first, later]
      rfl
    · simp [Token.word, same, spelled]

end NaturalDeduction
