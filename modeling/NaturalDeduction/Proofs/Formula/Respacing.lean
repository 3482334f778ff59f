import NaturalDeduction.Proofs.Formula.Correspondence
import NaturalDeduction.Proofs.Token.Unspaced

set_option autoImplicit false
set_option relaxedAutoImplicit false

namespace NaturalDeduction

/-- `Respaced ts cs` says that `cs` is the texts of the tokens `ts` in order and white space: some of it before every
token but the first, and any or none before the first one and after the last. -/
inductive Respaced : List Token → List Char → Prop
  | blank {cs : List Char} (white : ∀ c ∈ cs, Text.isWhiteSpace c = true) : Respaced [] cs
  | token {gap rest : List Char} {t : Token} {ts : List Token}
      (white : ∀ c ∈ gap, Text.isWhiteSpace c = true)
      (apart : ts ≠ [] → ∃ c ∈ rest.head?, Text.isWhiteSpace c = true) (after : Respaced ts rest) :
      Respaced (t :: ts) (gap ++ (t.text.toList ++ rest))

private theorem Lexes.of_respaced {ts : List Token} {cs : List Char} (lexed : ∀ t ∈ ts, t.IsLexed)
    (h : Respaced ts cs) : Lexes cs ts := by
  induction h with
  | blank white => exact .blank white
  | @token gap rest t ts white apart after ih =>
    have blank : ∀ d ∈ rest.head?, Text.isWhiteSpace d = true := by
      intro d first
      cases after with
      | blank white => exact white d (List.mem_of_mem_head? first)
      | token =>
        obtain ⟨c, begins, white⟩ := apart (by simp)
        rwa [Option.mem_unique first begins]
    refine .token white ((lexed t List.mem_cons_self).lexeme?_eq ?_ ?_) String.ofList_toList.symm
      (ih fun u member => lexed u (List.mem_cons_of_mem _ member))
    · intro _ d first
      by_contra goes
      have visible := Token.isWhiteSpace_of_isNameChar (Bool.not_eq_false _ ▸ goes)
      rw [blank d first] at visible
      cases visible
    · rintro _ d first rfl
      cases blank '|' first

/-- Tokens at the same index of two lists. -/
def SameIndex (ts us : List Token) (t u : Token) : Prop :=
  ∃ i : Nat, ts[i]? = some t ∧ us[i]? = some u

private theorem forall₂_sameIndex {ts us : List Token} (h : ts.length = us.length) :
    List.Forall₂ (SameIndex ts us) ts us := by
  refine List.forall₂_iff_get.2 ⟨h, fun i left right => ⟨i, ?_, ?_⟩⟩ <;> simp

private theorem word_eq_of_sameIndex {ts us : List Token} (same : ts.map Token.word = us.map Token.word)
    {t u : Token} (h : SameIndex ts us t u) : t.word = u.word := by
  obtain ⟨i, left, right⟩ := h
  have words := congrArg (·[i]?) same
  simpa [left, right] using words

namespace Formula

/-- A text whose tokens are written with other white space between them has the same tokens but for their offsets. So
the parser gives the same formula for both texts, or errors of the same cause that name tokens at the same index. -/
theorem parse_respaced {s s' : String} {ts : List Token} {stop : Token}
    (tokens : tokenize s = .ok (ts ++ [stop])) (respaced : Respaced ts s'.toList) :
    ∃ us, tokenize s' = .ok us ∧ us.map Token.word = (ts ++ [stop]).map Token.word ∧
      ((∃ f, parse s = .ok f ∧ parse s' = .ok f) ∨
        ∃ e e', parse s = .error (.grammatical e) ∧ parse s' = .error (.grammatical e') ∧
          e.Corresponds (SameIndex (ts ++ [stop]) us) e') := by
  obtain ⟨ts', place, split, lexes⟩ := Scanner.lexes_of_tokens tokens
  obtain ⟨rfl, ends⟩ := List.append_inj' split rfl
  cases ends
  obtain ⟨us, place', tokens', same⟩ := (Lexes.of_respaced lexes.isLexed respaced).tokens 0
  have words : (us ++ [Token.endAt place']).map Token.word = (ts ++ [Token.endAt place]).map Token.word := by
    simp [same, Token.word, Token.endAt]
  refine ⟨_, tokens', words, ?_⟩
  have count := congrArg List.length words
  rw [List.length_map, List.length_map] at count
  have alike := alike_ofCursor (fun t u => word_eq_of_sameIndex words.symm)
    (forall₂_sameIndex count.symm) ⟨Token.endAt place, by simp, rfl⟩ s.utf8ByteSize s'.utf8ByteSize
  rw [parse_of_tokenize tokens, parse_of_tokenize tokens']
  generalize ofCursor (.endingAt s.utf8ByteSize (ts ++ [Token.endAt place])) = outcome at alike
  generalize ofCursor (.endingAt s'.utf8ByteSize (us ++ [Token.endAt place'])) = outcome' at alike
  cases alike with
  | @ok f g results =>
    cases results
    exact Or.inl ⟨f, rfl, rfl⟩
  | @error e e' errors => exact Or.inr ⟨e, e', rfl, rfl, errors⟩

/-- Two bars stay one token when they are written apart from what is around them, and the parenthesis that was
unexpected still is, at another offset. -/
theorem parse_respaced_double_bar :
    ∃ us e, tokenize "p ||\t) " = .ok us ∧ parse "p||)" = .error (.grammatical e) ∧
      parse "p ||\t) " = .error (.grammatical (.unexpectedToken ⟨.rightParen, ")", 5⟩)) ∧
      e.Corresponds (SameIndex [⟨.name, "p", 0⟩, ⟨.connective .or, "||", 1⟩, ⟨.rightParen, ")", 3⟩, Token.endAt 4] us)
        (.unexpectedToken ⟨.rightParen, ")", 5⟩) := by
  have tokens : tokenize "p||)" = .ok
      ([⟨.name, "p", 0⟩, ⟨.connective .or, "||", 1⟩, ⟨.rightParen, ")", 3⟩] ++ [Token.endAt 4]) := by cbv
  have respaced : Respaced [⟨.name, "p", 0⟩, ⟨.connective .or, "||", 1⟩, ⟨.rightParen, ")", 3⟩]
      "p ||\t) ".toList := by
    have white {cs : List Char} (h : cs.all Text.isWhiteSpace = true) :
        ∀ c ∈ cs, Text.isWhiteSpace c = true := List.all_eq_true.1 h
    refine @Respaced.token [] [' ', '|', '|', '\t', ')', ' '] _ _ (white rfl) (fun _ => ⟨' ', rfl, rfl⟩) ?_
    refine @Respaced.token [' '] ['\t', ')', ' '] _ _ (white rfl) (fun _ => ⟨'\t', rfl, rfl⟩) ?_
    exact @Respaced.token ['\t'] [' '] _ _ (white rfl) (absurd rfl) (.blank (white rfl))
  have error : parse "p ||\t) " = .error (.grammatical (.unexpectedToken ⟨.rightParen, ")", 5⟩)) := by cbv
  obtain ⟨us, tokens', _, ⟨f, _, success⟩ | ⟨e, e', failure, failure', errors⟩⟩ :=
    parse_respaced tokens respaced
  · rw [error] at success
    cases success
  · rw [error] at failure'
    cases failure'
    exact ⟨us, e, tokens', failure, error, errors⟩

end Formula

end NaturalDeduction
