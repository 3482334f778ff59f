import NaturalDeduction.Proofs.Token.MaximalMunch

set_option autoImplicit false
set_option relaxedAutoImplicit false

namespace NaturalDeduction

namespace TokenKind

def isLeaf : TokenKind → Bool
  | name | const _ => true
  | _ => false

def isConnective : TokenKind → Bool
  | connective _ => true
  | _ => false

/-- What may come next: a connective after a leaf, and no connective after any other sign. -/
def Meets (k l : TokenKind) : Prop :=
  k.isLeaf = l.isConnective

end TokenKind

namespace Token

/-- A token has the text of a lexeme of its kind. -/
def IsLexed (t : Token) : Prop :=
  (t.text.toList, t.kind) ∈ spellings ∨ t.kind = .name ∧ Formula.IsName t.text

theorem isLexed_of_lexeme? {t : Token} {text rest : List Char}
    (h : lexeme? (text ++ rest) = some ⟨t.kind, text, rest⟩) (spelled : t.text = String.ofList text) :
    t.IsLexed := by
  rcases lexeme?_iff_munches.1 h with ⟨listed, _⟩ | ⟨isName, word, _⟩
  · exact Or.inl (by rwa [spelled, String.toList_ofList])
  · exact Or.inr ⟨isName, by rwa [spelled]⟩

private theorem lexeme?_spelling {kind : TokenKind} {text rest : List Char} (listed : (text, kind) ∈ spellings)
    (apart : kind.isConnective = true → ∀ d ∈ rest.head?, d ≠ '|') :
    lexeme? (text ++ rest) = some ⟨kind, text, rest⟩ := by
  refine lexeme?_iff_munches.2 (.spelling listed fun e member begins => ?_)
  by_contra longer
  -- the double bar is the only spelling that another one begins
  have only : ∀ e ∈ spellings, ∀ f ∈ spellings, e.1 <+: f.1 → ¬f.1.length ≤ e.1.length →
      e.2.isConnective = true ∧ f.1 = e.1 ++ ['|'] := by decide
  have extends_text : text <+: e.1 :=
    List.prefix_of_prefix_length_le (List.prefix_append _ _) begins (Nat.le_of_not_le longer)
  obtain ⟨connective, double⟩ := only _ listed _ member extends_text longer
  rw [double] at begins
  obtain ⟨more, rfl⟩ := (List.prefix_append_right_inj text).1 begins
  exact apart connective '|' rfl rfl

/-- A token is read where a name does not go on and a bar does not meet another one. -/
theorem IsLexed.lexeme?_eq {t : Token} {rest : List Char} (h : t.IsLexed)
    (stops : t.kind = .name → ∀ d ∈ rest.head?, isNameChar d = false)
    (apart : t.kind.isConnective = true → ∀ d ∈ rest.head?, d ≠ '|') :
    lexeme? (t.text.toList ++ rest) = some ⟨t.kind, t.text.toList, rest⟩ := by
  rcases h with listed | ⟨kind, isName⟩
  · exact lexeme?_spelling listed apart
  · rw [kind]
    exact lexeme?_name isName (stops kind)

private theorem IsLexed.head {t : Token} (h : t.IsLexed) :
    ∃ c tail, t.text.toList = c :: tail ∧ (t.kind.isConnective = true → isNameChar c = false) ∧
      (t.kind.isConnective = false → c ≠ '|') := by
  rcases h with listed | ⟨kind, c, tail, eq, start, _⟩
  · have heads : (spellings.all fun e => e.1.head?.all fun c =>
        if e.2.isConnective then !isNameChar c else c != '|') = true := by decide
    obtain ⟨c, tail, eq⟩ : ∃ c tail, t.text.toList = c :: tail :=
      List.exists_cons_of_ne_nil (spellings_ne_nil listed)
    have head := List.all_eq_true.1 heads _ listed
    dsimp only at head
    rw [eq] at head
    refine ⟨c, tail, eq, fun connective => ?_, fun other => ?_⟩
    · simpa [connective] using head
    · simpa [other] using head
  · refine ⟨c, tail, eq, ?_, ?_⟩
    · rw [kind]
      exact nofun
    · rintro _ rfl
      exact absurd start (by decide)

def unspaced (ts : List Token) : List Char :=
  ts.flatMap fun t => t.text.toList

@[simp] theorem unspaced_nil : unspaced [] = [] := rfl

@[simp] theorem unspaced_cons (t : Token) (ts : List Token) :
    unspaced (t :: ts) = t.text.toList ++ unspaced ts := by
  simp [unspaced]

@[simp] theorem unspaced_append (ts us : List Token) :
    unspaced (ts ++ us) = unspaced ts ++ unspaced us := by
  simp [unspaced]

structure IsRow (ts : List Token) : Prop where
  lexed : ∀ t ∈ ts, t.IsLexed
  meets : ts.IsChain fun t u => t.kind.Meets u.kind

private theorem IsRow.head_unspaced {t : Token} {ts : List Token} (row : IsRow (t :: ts)) :
    ∀ d ∈ (unspaced ts).head?, (t.kind.isLeaf = true → isNameChar d = false) ∧
      (t.kind.isLeaf = false → d ≠ '|') := by
  intro d first
  cases ts with
  | nil => cases first
  | cons u us =>
    have meets : t.kind.isLeaf = u.kind.isConnective := (List.isChain_cons_cons.1 row.meets).1
    obtain ⟨c, tail, eq, stops, apart⟩ := (row.lexed u (by simp)).head
    rw [unspaced_cons, eq] at first
    cases first
    rw [meets]
    exact ⟨stops, apart⟩

end Token

namespace Lexes

private theorem of_row {ts : List Token} (row : Token.IsRow ts) : Lexes (Token.unspaced ts) ts := by
  induction ts with
  | nil => exact .nil
  | cons t ts ih =>
    have after := ih ⟨fun u member => row.lexed u (List.mem_cons_of_mem _ member),
      (List.isChain_cons.1 row.meets).2⟩
    have next := row.head_unspaced
    rw [Token.unspaced_cons]
    refine cons ?_ String.ofList_toList.symm after
    refine (row.lexed t List.mem_cons_self).lexeme?_eq (fun kind d first => ?_)
      fun connective d first => (next d first).2 ?_
    · exact (next d first).1 (by rw [kind]; rfl)
    · revert connective
      cases t.kind <;> simp [TokenKind.isLeaf, TokenKind.isConnective]

theorem isLexed {cs : List Char} {ts : List Token} (h : Lexes cs ts) : ∀ t ∈ ts, t.IsLexed := by
  induction h with
  | blank => exact fun t member => by cases member
  | token _ first spelled _ ih =>
    intro u member
    rcases List.mem_cons.1 member with rfl | later
    · exact Token.isLexed_of_lexeme? first spelled
    · exact ih u later

private theorem word_eq {cs : List Char} {ts us : List Token} (h : Lexes cs ts) (h' : Lexes cs us) :
    ts.map Token.word = us.map Token.word := by
  obtain ⟨vs, stop, tokens, same⟩ := h.tokens 0
  obtain ⟨ws, stop', tokens', same'⟩ := h'.tokens 0
  rw [tokens] at tokens'
  have found : vs = ws := (List.append_inj' (Except.ok.inj tokens') rfl).1
  rw [← same, ← same', found]

end Lexes

/-- The characters of a row determine its words. -/
theorem Token.unspaced_eq_iff {ts us : List Token} (row : IsRow ts) (row' : IsRow us) :
    unspaced ts = unspaced us ↔ ts.map word = us.map word := by
  constructor
  · intro same
    have lexes := Lexes.of_row row
    rw [same] at lexes
    exact lexes.word_eq (Lexes.of_row row')
  · intro same
    have texts (ts : List Token) : unspaced ts = (ts.map word).flatMap fun w => w.2.toList := by
      rw [List.flatMap_map]
      rfl
    rw [texts, texts, same]

end NaturalDeduction
