import NaturalDeduction.Proofs.Formula.RoundTrip

/-!
The lexer as a segmentation. A text is cut into white space and lexemes, each as long as it can be, and every
character is in one or the other; the offset of a token is the number of bytes before its lexeme. A scanner gives
these tokens one at a time and then the end of the input, or the character at which no lexeme begins.
-/

set_option autoImplicit false
set_option relaxedAutoImplicit false

namespace NaturalDeduction

namespace Token

/-- `Munches kind text rest` says that `text` is a lexeme of this kind where `rest` follows: a spelling such
that no longer one stands here, or a name that does not go on. -/
inductive Munches (kind : TokenKind) (text rest : List Char) : Prop
  | spelling (listed : (text, kind) ∈ spellings)
      (longest : ∀ e ∈ spellings, e.1 <+: text ++ rest → e.1.length ≤ text.length)
  | name (isName : kind = .name) (word : Formula.IsName (String.ofList text))
      (ends : ∀ d ∈ rest.head?, isNameChar d = false)

/-- The list has no spelling before another one that it begins, so the first one found is the longest. -/
private theorem pairwise_spellings : spellings.Pairwise fun e f => ¬e.1 <+: f.1 := by
  decide

private theorem fixedLexeme?_spellings_iff {kind : TokenKind} {text rest : List Char} :
    fixedLexeme? spellings (text ++ rest) = some ⟨kind, text, rest⟩ ↔
      (text, kind) ∈ spellings ∧
        ∀ e ∈ spellings, e.1 <+: text ++ rest → e.1.length ≤ text.length := by
  have here : text <+: text ++ rest := List.prefix_append _ _
  constructor
  · intro fixed
    obtain ⟨_, before, after, split, earlier⟩ := fixedLexeme?_eq_some.1 fixed
    refine ⟨by simp [split], ?_⟩
    intro e member begins
    have ordered := pairwise_spellings
    rw [split, List.pairwise_append, List.pairwise_cons] at ordered
    rw [split] at member
    rcases List.mem_append.1 member with first | last
    · exact absurd begins (earlier e first)
    · rcases List.mem_cons.1 last with rfl | later
      · exact Nat.le_refl _
      · have apart := ordered.2.1.1 e later
        rcases Nat.le_total e.1.length text.length with short | long
        · exact short
        · exact absurd (List.prefix_of_prefix_length_le here begins long) apart
  · rintro ⟨listed, longest⟩
    obtain ⟨before, after, split⟩ := List.append_of_mem listed
    refine fixedLexeme?_eq_some.2 ⟨rfl, before, after, split, fun e member begins => ?_⟩
    have ordered := pairwise_spellings
    rw [split, List.pairwise_append] at ordered
    have short := longest e (by rw [split]; exact List.mem_append_left _ member) begins
    exact ordered.2.2 e member _ List.mem_cons_self
      (List.prefix_of_prefix_length_le begins here short)

/-- The lexer finds the lexemes that are as long as they can be. -/
theorem lexeme?_iff_munches {kind : TokenKind} {text rest : List Char} :
    lexeme? (text ++ rest) = some ⟨kind, text, rest⟩ ↔ Munches kind text rest := by
  constructor
  · intro found
    rcases lexeme?_eq_some.1 found with fixed | ⟨_, named⟩
    · obtain ⟨listed, longest⟩ := fixedLexeme?_spellings_iff.1 fixed
      exact .spelling listed longest
    · have isName : kind = .name := (name?_eq_some.1 named).1
      subst isName
      obtain ⟨word, ends⟩ := isName_of_lexeme? found
      exact .name rfl word ends
  · rintro (⟨listed, longest⟩ | ⟨rfl, word, ends⟩)
    · exact lexeme?_eq_some.2 (Or.inl (fixedLexeme?_spellings_iff.2 ⟨listed, longest⟩))
    · simpa using lexeme?_name word ends

def Begins (cs : List Char) : Prop :=
  ∃ kind text rest, cs = text ++ rest ∧ Munches kind text rest

theorem lexeme?_eq_none_iff {cs : List Char} : lexeme? cs = none ↔ ¬Begins cs := by
  constructor
  · rintro none ⟨kind, text, rest, rfl, munches⟩
    rw [lexeme?_iff_munches.2 munches] at none
    cases none
  · intro stuck
    cases found : lexeme? cs with
    | none => rfl
    | some l =>
      have parts := lexeme?_append found
      rw [← parts] at found
      exact absurd ⟨l.kind, l.text, l.rest, parts.symm, lexeme?_iff_munches.1 found⟩ stuck

end Token

/-- `Segments before cs ts last` says that after the characters `before` a text goes on with `cs`, that `cs` is the
lexemes of the tokens `ts`, each with white space before it or none, and that `last` comes after them: the end of
the input, or the error at a character that begins no lexeme. -/
inductive Segments : List Char → List Char → List Token → Except LexError Token → Prop
  | blank {before cs : List Char} (white : ∀ c ∈ cs, Text.isWhiteSpace c = true) :
      Segments before cs [] (.ok (Token.endAt (Text.byteLength (before ++ cs))))
  | stuck {before gap rest : List Char} {c : Char} (white : ∀ d ∈ gap, Text.isWhiteSpace d = true)
      (visible : Text.isWhiteSpace c = false) (none : ¬Token.Begins (c :: rest)) :
      Segments before (gap ++ c :: rest) [] (.error ⟨c, Text.byteLength (before ++ gap)⟩)
  | token {before gap text rest : List Char} {t : Token} {ts : List Token}
      {last : Except LexError Token} (white : ∀ c ∈ gap, Text.isWhiteSpace c = true)
      (munches : Token.Munches t.kind text rest) (spelled : t.text = String.ofList text)
      (place : t.offset = Text.byteLength (before ++ gap))
      (after : Segments (before ++ gap ++ text) rest ts last) :
      Segments before (gap ++ (text ++ rest)) (t :: ts) last

private theorem Segments.exists (before cs : List Char) : ∃ ts last, Segments before cs ts last := by
  induction size : cs.length using Nat.strongRecOn generalizing before cs with
  | ind n ih =>
    subst size
    cases Token.front cs with
    | blank white => exact ⟨[], _, .blank white⟩
    | @lexeme gap text rest kind white found =>
      -- the lexeme has a character, so what follows is shorter
      obtain ⟨ts, last, after⟩ :=
        ih _ (Token.length_lt_of_lexeme? gap found) (before ++ gap ++ text) rest rfl
      exact ⟨⟨kind, String.ofList text, Text.byteLength (before ++ gap)⟩ :: ts, last,
        .token white (Token.lexeme?_iff_munches.1 found) rfl rfl after⟩
    | unknown white visible unknown =>
      exact ⟨[], _, .stuck white visible (Token.lexeme?_eq_none_iff.1 unknown)⟩

private theorem Segments.stop_eq {before cs : List Char} {ts : List Token} {stop : Token}
    (h : Segments before cs ts (.ok stop)) :
    stop = Token.endAt (Text.byteLength (before ++ cs)) := by
  generalize eq : Except.ok stop = last at h
  induction h with
  | blank _ => exact Except.ok.inj eq
  | stuck _ _ _ => cases eq
  | token _ _ _ _ _ ih =>
    rw [ih eq]
    simp only [List.append_assoc]

namespace Scanner

/-- The scanner after it was asked for an item; a finished one stays as it is. -/
def advance (s : Scanner) : Scanner :=
  (s.next?.map Prod.snd).getD s

/-- What a scanner gives when it was asked so many times before. -/
def item? (s : Scanner) (asked : Nat) : Option (Except LexError Token) :=
  (advance^[asked] s).next?.map Prod.fst

variable {s s' : Scanner} {item : Except LexError Token}

private theorem item?_zero (h : s.next? = some (item, s')) : s.item? 0 = some item := by
  simp [item?, h]

private theorem item?_succ (h : s.next? = some (item, s')) (n : Nat) : s.item? (n + 1) = s'.item? n := by
  have next : s.advance = s' := by simp [advance, h]
  rw [item?, Function.iterate_succ_apply, next, item?]

private theorem item?_of_finished (h : s.finished = true) (n : Nat) : s.item? n = none := by
  have stays : s.advance = s := by simp [advance, next?_of_finished h]
  rw [item?, Function.iterate_fixed stays, next?_of_finished h]
  rfl

private theorem item?_of_last (h : s.next? = some (item, s')) (done : s'.finished = true) (n : Nat) :
    s.item? n = [item][n]? := by
  cases n with
  | zero => exact item?_zero h
  | succ n => simpa [item?_of_finished done] using item?_succ h n

/-- From a place on the scanner gives the tokens of the segmentation, then what comes after them, and then
nothing any more. -/
theorem item?_of_segments {before cs : List Char} {ts : List Token} {last : Except LexError Token}
    (h : Segments before cs ts last) (n : Nat) :
    item? ⟨cs, Text.byteLength before, false⟩ n = (ts.map .ok ++ [last])[n]? := by
  induction h generalizing n with
  | blank white =>
    rw [Text.byteLength_append]
    exact item?_of_last (next?_blank white _) rfl n
  | stuck white visible none =>
    rw [Text.byteLength_append]
    exact item?_of_last (next?_of_unknown white visible (Token.lexeme?_eq_none_iff.2 none) _) rfl n
  | @token before gap text rest t ts last white munches spelled place _ ih =>
    have first := next?_lexeme white (Token.lexeme?_iff_munches.2 munches) (Text.byteLength before)
    rw [← Text.byteLength_append, ← Text.byteLength_append, ← spelled, ← place] at first
    cases n with
    | zero => exact item?_zero first
    | succ n =>
      rw [item?_succ first, ih]
      rfl

private theorem tokens_of_segments {before cs : List Char} {ts : List Token} {last : Except LexError Token}
    (h : Segments before cs ts last) :
    tokens ⟨cs, Text.byteLength before, false⟩ = last.map fun stop => ts ++ [stop] := by
  induction h with
  | blank white =>
    rw [tokens_blank white, Text.byteLength_append]
    rfl
  | stuck white visible none =>
    rw [tokens_of_unknown white visible (Token.lexeme?_eq_none_iff.2 none), Text.byteLength_append]
    rfl
  | @token before gap text rest t ts last white munches spelled place _ ih =>
    have first := tokens_lexeme white (Token.lexeme?_iff_munches.2 munches) (Text.byteLength before)
    rw [← Text.byteLength_append, ← Text.byteLength_append, ← spelled, ← place, ih] at first
    rw [first]
    cases last <;> rfl

private theorem offset_le_advance (s : Scanner) : s.offset ≤ s.advance.offset := by
  have skipped : s.offset ≤ s.skipWhiteSpace.offset := Nat.le_add_right _ _
  have taken (r : Scanner) : r.offset ≤ r.read.2.offset := by
    unfold read
    split
    · exact Nat.le_refl _
    · split
      · exact Nat.le_refl _
      · exact Nat.le_add_right _ _
  unfold advance next?
  split
  · exact Nat.le_refl _
  · exact Nat.le_trans skipped (taken _)

private theorem monotone_offset (s : Scanner) : Monotone fun n => (advance^[n] s).offset := by
  refine monotone_nat_of_le_succ fun n => ?_
  rw [Function.iterate_succ_apply']
  exact offset_le_advance _

end Scanner

theorem Text.byteLength_toList (s : String) : Text.byteLength s.toList = s.utf8ByteSize := by
  have chars (cs : List Char) : Text.byteLength cs = (String.ofList cs).utf8ByteSize := by
    induction cs with
    | nil => rfl
    | cons c cs ih =>
      rw [← List.singleton_append, String.ofList_append, String.utf8ByteSize_append, ← ih]
      simp
  rw [chars, String.ofList_toList]

theorem Segments.tokenize_eq {s : String} {ts : List Token} {last : Except LexError Token}
    (h : Segments [] s.toList ts last) : tokenize s = last.map fun stop => ts ++ [stop] :=
  Scanner.tokens_of_segments h

theorem exists_segments_of_tokenize_eq_error {s : String} {e : LexError} (h : tokenize s = .error e) :
    ∃ ts, Segments [] s.toList ts (.error e) := by
  obtain ⟨ts, last, segments⟩ := Segments.exists [] s.toList
  rw [segments.tokenize_eq] at h
  cases last with
  | ok stop => cases h
  | error e' =>
    cases h
    exact ⟨ts, segments⟩

private theorem exists_segments_of_tokenize_eq_ok {s : String} {ts : List Token} (h : tokenize s = .ok ts) :
    ∃ us, Segments [] s.toList us (.ok (Token.endAt s.utf8ByteSize)) ∧ ts = us ++ [Token.endAt s.utf8ByteSize] := by
  obtain ⟨us, last, segments⟩ := Segments.exists [] s.toList
  rw [segments.tokenize_eq] at h
  cases last with
  | error e => cases h
  | ok stop =>
    obtain rfl : stop = Token.endAt s.utf8ByteSize := by
      rw [segments.stop_eq, List.nil_append, Text.byteLength_toList]
    exact ⟨us, segments, (Except.ok.inj h).symm⟩

/-- The tokens of a text end where the text does. -/
theorem finishOf_of_tokenize {s : String} {ts : List Token} (h : tokenize s = .ok ts)
    (size : s.utf8ByteSize ≤ offsetLimit) : Token.finishOf ts = .ok s.utf8ByteSize := by
  obtain ⟨us, _, rfl⟩ := exists_segments_of_tokenize_eq_ok h
  have counted : Token.Counted (us ++ [Token.endAt s.utf8ByteSize]) :=
    Token.counted_append_cons.2 (Token.counted_endAt_cons (by simp [Token.Counted]) size)
  rw [Token.finishOf_of_counted counted]
  simp [Token.endAt]

/-- Lexing is segmentation by maximal munch. A text has the tokens `ts` exactly when it is their lexemes with
white space around them, each as long as it can be and at its offset, and `ts` ends with the end of the input; the
lexer fails exactly when it comes to a character that begins no lexeme. Asked for one item after the other, a
scanner gives the tokens, then the end or the error, then nothing, and its offset never goes down. -/
theorem tokenize_iff_segments (s : String) :
    (∀ ts, tokenize s = .ok ts ↔
      ∃ us, Segments [] s.toList us (.ok (Token.endAt s.utf8ByteSize)) ∧
        ts = us ++ [Token.endAt s.utf8ByteSize]) ∧
    (∀ e, tokenize s = .error e ↔ ∃ us, Segments [] s.toList us (.error e)) ∧
    (∃ us last, Segments [] s.toList us last ∧ (tokenize s = last.map fun stop => us ++ [stop]) ∧
      ∀ n, (Scanner.ofString s).item? n = (us.map .ok ++ [last])[n]?) ∧
    Monotone fun n => (Scanner.advance^[n] (Scanner.ofString s)).offset := by
  obtain ⟨us, last, segments⟩ := Segments.exists [] s.toList
  refine ⟨fun ts => ⟨exists_segments_of_tokenize_eq_ok, ?_⟩,
    fun e => ⟨exists_segments_of_tokenize_eq_error, ?_⟩,
    ⟨us, last, segments, segments.tokenize_eq, Scanner.item?_of_segments segments⟩, Scanner.monotone_offset _⟩
  · rintro ⟨vs, cut, rfl⟩
    exact cut.tokenize_eq
  · rintro ⟨vs, cut⟩
    exact cut.tokenize_eq

end NaturalDeduction
