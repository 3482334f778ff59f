import NaturalDeduction.Proofs.Formula.Acceptance
import NaturalDeduction.Proofs.Token.Segmentation

set_option autoImplicit false
set_option relaxedAutoImplicit false

namespace NaturalDeduction

namespace Spells

private theorem of_word_eq {l : Level} {ts us : List Token} {n : Nat} {f : Formula} (h : Spells l ts n f)
    (same : us.map Token.word = ts.map Token.word) : Spells l us n f := by
  have kind_eq {t u : Token} (h : u.word = t.word) : u.kind = t.kind := congrArg Prod.fst h
  induction h generalizing us with
  | var kind =>
    obtain ⟨u, rfl, word⟩ := List.map_eq_singleton_iff.1 same
    have text := congrArg Prod.snd word
    simp only [Token.word] at text
    rw [← text]
    exact .var ((kind_eq word).trans kind)
  | const kind =>
    obtain ⟨u, rfl, word⟩ := List.map_eq_singleton_iff.1 same
    exact .const ((kind_eq word).trans kind)
  | paren left _ right ih =>
    rw [List.map_append] at same
    obtain ⟨init, last, rfl, first, closing⟩ := List.map_eq_append_iff.1 same
    obtain ⟨opening, inner, rfl, word, middle⟩ := List.map_eq_cons_iff.1 first
    obtain ⟨u, rfl, word'⟩ := List.map_eq_singleton_iff.1 closing
    exact .paren ((kind_eq word).trans left) (ih middle) ((kind_eq word').trans right)
  | not kind _ ih =>
    obtain ⟨u, rest, rfl, word, later⟩ := List.map_eq_cons_iff.1 same
    exact .not ((kind_eq word).trans kind) (ih later)
  | implies _ kind _ ihf ihg =>
    rw [List.map_append] at same
    obtain ⟨left, rest, rfl, first, second⟩ := List.map_eq_append_iff.1 same
    obtain ⟨u, right, rfl, word, later⟩ := List.map_eq_cons_iff.1 second
    exact .implies (ihf first) ((kind_eq word).trans kind) (ihg later)
  | chain grouping _ kind _ ihf ihg =>
    rw [List.map_append] at same
    obtain ⟨left, rest, rfl, first, second⟩ := List.map_eq_append_iff.1 same
    obtain ⟨u, right, rfl, word, later⟩ := List.map_eq_cons_iff.1 second
    exact .chain grouping (ihf first) ((kind_eq word).trans kind) (ihg later)
  | tighter below _ ih => exact .tighter below (ih same)

theorem loosen {l k : Level} {ts : List Token} {n : Nat} {f : Formula} (h : Spells k ts n f)
    (le : l.rank ≤ k.rank) : Spells l ts n f := by
  induction gap : k.rank - l.rank generalizing l with
  | zero =>
    have same : l = k := Level.rank_injective (Nat.le_antisymm le (by omega))
    rwa [same]
  | succ gap ih =>
    have top := k.rank_le
    have below : l ≠ .atom := by
      rintro rfl
      have : Level.atom.rank = 6 := rfl
      omega
    have next := Level.rank_tighter below
    exact .tighter below (ih (by omega) (by omega))

theorem whole {l : Level} {ts : List Token} {n : Nat} {f : Formula} (h : Spells l ts n f) :
    Spells .loosest ts n f :=
  h.loosen (Nat.not_lt.1 l.not_rank_lt_loosest)

theorem parens {ts : List Token} {n : Nat} {f : Formula} (h : Spells .loosest ts n f) (l : Level) :
    Spells l (⟨.leftParen, "(", 0⟩ :: ts ++ [⟨.rightParen, ")", 0⟩]) (n + 1) f := by
  have atom : Spells .atom (⟨.leftParen, "(", 0⟩ :: ts ++ [⟨.rightParen, ")", 0⟩]) (n + 1) f :=
    .paren rfl h rfl
  exact atom.loosen (Level.rank_le l)

theorem binary {op : Connective} {t : Token} {ts us : List Token} {m n : Nat} {f g : Formula}
    (left : Spells (.left op) ts m f) (kind : t.kind = .connective op)
    (right : Spells (.right op) us n g) :
    Spells (.binary op) (ts ++ t :: us) (max m (if op = .implies then n + 1 else n))
      (.binary op f g) := by
  by_cases grouping : op = .implies
  · subst grouping
    exact .implies left kind right
  · rw [if_neg grouping]
    exact .chain grouping left kind right

end Spells

/-- A text that is made of tokens which spell a formula, with this nesting. -/
def SpelledBy (f : Formula) (n : Nat) (s : String) : Prop :=
  ∃ ts, Lexes s.toList ts ∧ Spells .loosest ts n f

namespace Formula

private theorem takeWhile_content {ts : List Token} {stop : Nat}
    (content : ∀ t ∈ ts, t.isEnd = false) :
    (ts ++ [Token.endAt stop]).takeWhile (!·.isEnd) = ts := by
  rw [List.takeWhile_append_of_pos (by simpa using content)]
  simp [Token.isEnd, Token.endAt]

theorem tokenize_of_lexes {s : String} {ts : List Token} {l : Level} {n : Nat} {f : Formula}
    (lexes : Lexes s.toList ts) (spells : Spells l ts n f) :
    ∃ us, tokenize s = .ok us ∧ Spells l (us.takeWhile (!·.isEnd)) n f := by
  obtain ⟨us, stop, tokens, same⟩ := lexes.tokens 0
  refine ⟨_, tokens, ?_⟩
  have content : ∀ t ∈ us, t.isEnd = false := by
    intro t member
    obtain ⟨u, listed, word⟩ : ∃ u ∈ ts, u.word = t.word := by
      have : t.word ∈ us.map Token.word := List.mem_map_of_mem member
      rw [same] at this
      exact List.mem_map.1 this
    have kind : u.kind = t.kind := congrArg Prod.fst word
    have := lexes.isEnd_eq_false u listed
    rwa [Token.isEnd, kind] at this
  rw [takeWhile_content content]
  exact spells.of_word_eq same

theorem parse_of_tokenize {s : String} {us : List Token} (h : tokenize s = .ok us) :
    parse s = (ofCursor (.endingAt s.utf8ByteSize us)).mapError .grammatical := by
  simp only [parse, h]
  cases ofCursor (.endingAt s.utf8ByteSize us) <;> rfl

theorem parse_of_spelledBy {s : String} {n : Nat} {f : Formula} (h : SpelledBy f n s)
    (nests : n ≤ depthLimit) (high : f.height ≤ depthLimit) : parse s = .ok f := by
  obtain ⟨ts, lexes, spells⟩ := h
  obtain ⟨us, tokens, content⟩ := tokenize_of_lexes lexes spells
  rw [parse_of_tokenize tokens, ofCursor_eq_ok_iff.2 ⟨n, content, nests, high⟩]
  rfl

theorem parse_of_spelledBy_deep {s : String} {n : Nat} {f : Formula} (h : SpelledBy f n s)
    (deep : ¬(n ≤ depthLimit ∧ f.height ≤ depthLimit)) :
    ∃ offset, parse s = .error (.grammatical (.tooDeep offset)) := by
  obtain ⟨ts, lexes, spells⟩ := h
  obtain ⟨us, tokens, content⟩ := tokenize_of_lexes lexes spells
  obtain ⟨offset, error⟩ := isTooDeep_ofCursor s.utf8ByteSize content deep
  refine ⟨offset, ?_⟩
  rw [parse_of_tokenize tokens, error]
  rfl

/-- A text is read as a formula, or it is found too deep; there is no other outcome. -/
def ReadsAs (f : Formula) (s : String) : Prop :=
  parse s = .ok f ∨ ∃ offset, parse s = .error (.grammatical (.tooDeep offset))

theorem readsAs_of_spelledBy {s : String} {n : Nat} {f : Formula} (h : SpelledBy f n s) :
    ReadsAs f s := by
  by_cases fits : n ≤ depthLimit ∧ f.height ≤ depthLimit
  · exact Or.inl (parse_of_spelledBy h fits.1 fits.2)
  · exact Or.inr (parse_of_spelledBy_deep h fits)

/-- What parses is spelled by its text, within the limit. -/
theorem spelledBy_of_parse {s : String} {f : Formula} (h : parse s = .ok f) :
    ∃ n, SpelledBy f n s ∧ n ≤ depthLimit ∧ f.height ≤ depthLimit := by
  cases tokens : tokenize s with
  | error e =>
    simp only [parse, tokens] at h
    cases h
  | ok us =>
    rw [parse_of_tokenize tokens] at h
    obtain ⟨ts, stop, rfl, lexes⟩ := Scanner.lexes_of_tokens tokens
    cases whole : ofCursor (.endingAt s.utf8ByteSize (ts ++ [Token.endAt stop])) with
    | error e =>
      rw [whole] at h
      cases h
    | ok g =>
      rw [whole] at h
      cases h
      obtain ⟨n, spells, nests, high⟩ := ofCursor_eq_ok_iff.1 whole
      rw [takeWhile_content lexes.isEnd_eq_false] at spells
      exact ⟨n, ⟨ts, lexes, spells⟩, nests, high⟩

/-- If a text that spells a formula parses, it parses to this formula. -/
theorem eq_of_parse {s : String} {n : Nat} {f g : Formula} (spelled : SpelledBy g n s)
    (h : parse s = .ok f) : f = g := by
  rcases readsAs_of_spelledBy spelled with whole | ⟨offset, error⟩
  · rw [whole] at h
    exact (Except.ok.inj h).symm
  · rw [error] at h
    cases h

end Formula

end NaturalDeduction
