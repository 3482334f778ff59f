import NaturalDeduction.Proofs.Token.MaximalMunch

set_option autoImplicit false
set_option relaxedAutoImplicit false

namespace NaturalDeduction

namespace Token

variable {kind : TokenKind} {text rest more cs : List Char}

private theorem Munches.of_append (h : Munches kind text (rest ++ more)) : Munches kind text rest :=
  lexeme?_iff_munches.1 (lexeme?_of_append (lexeme?_iff_munches.2 h))

private theorem begins_iff :
    Begins cs ↔ (∃ e ∈ spellings, e.1 <+: cs) ∨ ∃ c ∈ cs.head?, isNameStart c = true := by
  have names : name? cs = none ↔ ∀ c ∈ cs.head?, isNameStart c = false := by
    cases cs <;> simp [name?]
  rw [← not_iff_not, ← lexeme?_eq_none_iff, lexeme?, Option.or_eq_none_iff, fixedLexeme?_eq_none, names]
  simp

private theorem Begins.append (h : Begins cs) (more : List Char) : Begins (cs ++ more) := by
  rw [begins_iff] at h ⊢
  rcases h with ⟨e, listed, starts⟩ | ⟨c, first, start⟩
  · exact Or.inl ⟨e, listed, starts.trans (List.prefix_append cs more)⟩
  · exact Or.inr ⟨c, by simp [List.head?_append, Option.mem_def.1 first], start⟩

end Token

/-- The text before an error is segmented without one, and the error stays when the text is cut off behind it. -/
private theorem Segments.split_of_error {before cs : List Char} {ts : List Token} {e : LexError}
    (h : Segments before cs ts (.error e)) :
    ∃ front rest, cs = front ++ e.character :: rest ∧ e.offset = Text.byteLength (before ++ front) ∧
      Text.isWhiteSpace e.character = false ∧ Segments before front ts (.ok (Token.endAt e.offset)) ∧
      ∀ kept more, rest = kept ++ more → Segments before (front ++ e.character :: kept) ts (.error e) := by
  generalize eq : Except.error e = last at h
  induction h with
  | blank _ => cases eq
  | @stuck before gap rest c white visible none =>
    cases eq
    refine ⟨gap, rest, rfl, rfl, visible, .blank white, ?_⟩
    rintro kept more rfl
    exact .stuck white visible fun begins => none (begins.append more)
  | @token before gap text rest t ts last white munches spelled place _ ih =>
    obtain ⟨front, tail, rfl, offset, visible, ends, stays⟩ := ih eq
    refine ⟨gap ++ (text ++ front), tail, by simp, by simp [offset], visible, ?_, ?_⟩
    · exact .token white munches.of_append spelled place ends
    · rintro kept more rfl
      -- the lexeme ends before the cut, and it was the longest one with more of the text in sight
      have longer : Token.Munches t.kind text ((front ++ e.character :: kept) ++ more) := by
        simpa using munches
      simpa using Segments.token white longer.of_append spelled place (stays kept more rfl)

private theorem Text.exists_of_byteLength_lt {front rest cs ds : List Char} {c : Char}
    (split : front ++ c :: rest = cs ++ ds) (longer : byteLength front < byteLength cs) :
    ∃ kept, cs = front ++ c :: kept ∧ rest = kept ++ ds := by
  rcases List.append_eq_append_iff.1 split with ⟨mid, rfl, tail⟩ | ⟨mid, rfl, _⟩
  · cases mid with
    | nil => simp at longer
    | cons d kept =>
      cases tail
      exact ⟨kept, rfl, rfl⟩
  · rw [byteLength_append] at longer
    omega

/-- An error of the lexer marks the longest part of a text that can be read from its beginning. The character at its
offset is the one in the error and no white space; the text before it has the tokens that the scanner gave before the
error, and every part of the text that goes further has the same error. -/
theorem tokenize_error_longest {s : String} {e : LexError} (h : tokenize s = .error e) :
    ∃ t u : String, s = t ++ u ∧ t.utf8ByteSize = e.offset ∧ u.toList.head? = some e.character ∧
      Text.isWhiteSpace e.character = false ∧
      (∃ ts, tokenize t = .ok (ts ++ [Token.endAt e.offset]) ∧
        ∀ n, (Scanner.ofString s).item? n = (ts.map .ok ++ [.error e])[n]?) ∧
      ∀ v w, s = v ++ w → e.offset < v.utf8ByteSize → tokenize v = .error e := by
  obtain ⟨ts, segments⟩ := exists_segments_of_tokenize_eq_error h
  obtain ⟨front, rest, split, offset, visible, ends, stays⟩ := segments.split_of_error
  rw [List.nil_append] at offset
  refine ⟨String.ofList front, String.ofList (e.character :: rest), ?_, ?_, by simp, visible,
    ⟨ts, ?_, Scanner.item?_of_segments segments⟩, ?_⟩
  · rw [← String.ofList_append, ← split, String.ofList_toList]
  · rw [← Text.byteLength_toList, String.toList_ofList, offset]
  · rw [← String.toList_ofList (l := front)] at ends
    exact ends.tokenize_eq
  · intro v w parts longer
    rw [parts, String.toList_append] at split
    rw [offset, ← Text.byteLength_toList] at longer
    obtain ⟨kept, whole, more⟩ := Text.exists_of_byteLength_lt split.symm longer
    have cut := stays kept w.toList more
    rw [← whole] at cut
    exact cut.tokenize_eq

/-- A sign that is begun and not ended is an error at its first character, however much of it there is. -/
theorem tokenize_error_longest_unfinished_sign :
    tokenize "¬p <-" = .error ⟨'<', 4⟩ ∧ tokenize "¬p <" = .error ⟨'<', 4⟩ := by
  have whole : tokenize "¬p <-" = .error ⟨'<', 4⟩ := by cbv
  obtain ⟨_, _, _, _, _, _, _, longer⟩ := tokenize_error_longest whole
  exact ⟨whole, longer "¬p <" "-" rfl (by decide)⟩

end NaturalDeduction
