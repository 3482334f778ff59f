import NaturalDeduction.Proofs.Formula.Operand
import NaturalDeduction.Proofs.Formula.Outline
import NaturalDeduction.Proofs.Token.Unspaced

set_option autoImplicit false
set_option relaxedAutoImplicit false

namespace NaturalDeduction

private theorem Token.eq_rightParen_of_mem {cs : List Char} {l : Lexed} (h : lexeme? cs = some l)
    (member : ')' ∈ l.text) : l.kind = .rightParen ∧ l.text = [')'] := by
  obtain ⟨left, right, other⟩ := text_of_kind h
  have closes : l.kind = .rightParen := by
    by_contra notRight
    by_cases opens : l.kind = .leftParen
    · rw [left opens] at member
      exact absurd member (by decide)
    · exact (other opens notRight ')' member).2 rfl
  exact ⟨closes, right closes⟩

namespace Lexes

variable {cs : List Char} {ts : List Token}

private theorem exists_lexeme_of_mem {c : Char} (h : Lexes cs ts) (member : c ∈ cs)
    (visible : Text.isWhiteSpace c = false) :
    ∃ t ∈ ts, ∃ text rest, Token.lexeme? (text ++ rest) = some ⟨t.kind, text, rest⟩ ∧ c ∈ text := by
  induction h with
  | blank white =>
    rw [white c member] at visible
    cases visible
  | @token gap text rest t ts white first _ _ ih =>
    simp only [List.mem_append] at member
    rcases member with blank | here | later
    · rw [white c blank] at visible
      cases visible
    · exact ⟨t, List.mem_cons_self, text, rest, first, here⟩
    · obtain ⟨u, listed, found⟩ := ih later
      exact ⟨u, List.mem_cons_of_mem _ listed, found⟩

private theorem of_concat_rightParen (h : Lexes (cs ++ [')']) ts) :
    ∃ us t, ts = us ++ [t] ∧ t.kind = .rightParen ∧ Lexes cs us := by
  generalize eq : cs ++ [')'] = all at h
  induction h generalizing cs with
  | blank white =>
    have blank := white ')' (by simp [← eq])
    cases blank
  | @token gap text rest t ts white first spelled after ih =>
    rcases List.eq_nil_or_concat rest with rfl | ⟨rest, d, rfl⟩
    · have last : ')' ∈ text := by
        have ends := congrArg List.getLast? eq
        refine List.mem_of_getLast? ?_
        simpa [List.getLast?_append, Token.text_ne_nil first] using ends.symm
      obtain ⟨closes, whole⟩ := Token.eq_rightParen_of_mem first last
      dsimp only at closes whole
      rw [whole, List.append_nil] at eq
      obtain ⟨rfl, _⟩ := List.append_inj' eq rfl
      rw [after.eq_nil]
      exact ⟨[], t, rfl, closes, .blank white⟩
    · rw [List.concat_eq_append] at first ih eq
      rw [← List.append_assoc, ← List.append_assoc] at eq
      obtain ⟨rfl, same⟩ := List.append_inj' eq rfl
      cases same
      obtain ⟨us, u, rfl, closes, before⟩ := ih rfl
      refine ⟨t :: us, u, rfl, closes, ?_⟩
      rw [List.append_assoc]
      exact token white (Token.lexeme?_of_append first) spelled before

end Lexes

namespace Operand

variable {cs : List Char} {ts : List Token}

private theorem holdsConnective_iff : holdsConnective cs = true ↔ ∃ spelling ∈ spellings, spelling <:+: cs := by
  constructor
  · intro holds
    induction cs with
    | nil => cases holds
    | cons c cs ih =>
      rw [holdsConnective, Bool.or_eq_true, List.any_eq_true] at holds
      rcases holds with ⟨spelling, listed, begins⟩ | later
      · exact ⟨spelling, listed, (List.isPrefixOf_iff_prefix.1 begins).isInfix⟩
      · obtain ⟨spelling, listed, part⟩ := ih later
        exact ⟨spelling, listed, List.infix_cons part⟩
  · rintro ⟨spelling, listed, before, after, rfl⟩
    rw [List.append_assoc]
    exact holdsConnective_append (holdsConnective_of_spelling listed after) before

private theorem exists_connective_of_mem {l : Token.Lexed} {c : Char} {more : List Char}
    (h : Token.lexeme? cs = some l) (listed : c :: more ∈ spellings) (member : c ∈ l.text) :
    ∃ op, l.kind = .connective op := by
  have connectives : ∀ s ∈ spellings, ∀ e ∈ Token.spellings, s.head?.any e.1.contains = true →
      e.2.isConnective = true := by decide
  have noNames : ∀ s ∈ spellings, s.head?.any Token.isNameChar = false := by decide
  rcases Token.listed_or_name h with entry | ⟨_, name⟩
  · have connective := connectives _ listed _ entry (List.contains_iff_mem.2 member)
    cases kind : l.kind with
    | connective op => exact ⟨op, rfl⟩
    | leftParen | rightParen | not | name | const b | endOfInput =>
      rw [kind] at connective
      cases connective
  · have plain : Token.isNameChar c = false := noNames _ listed
    rw [name c member] at plain
    cases plain

private theorem holdsConnective_iff_of_lexes (h : Lexes cs ts) :
    holdsConnective cs = true ↔ ∃ t ∈ ts, ∃ op, t.kind = .connective op := by
  constructor
  · intro holds
    have visible : ∀ s ∈ spellings, s.head?.any (!Text.isWhiteSpace ·) = true := by decide
    obtain ⟨spelling, listed, part⟩ := holdsConnective_iff.1 holds
    have first := visible _ listed
    cases spelling with
    | nil => cases first
    | cons c more =>
      have seen : Text.isWhiteSpace c = false := by simpa using first
      obtain ⟨t, among, text, rest, lexeme, here⟩ :=
        h.exists_lexeme_of_mem (part.subset List.mem_cons_self) seen
      exact ⟨t, among, exists_connective_of_mem lexeme listed here⟩
  · rintro ⟨t, among, op, kind⟩
    exact holdsConnective_of_lexes h ⟨t, among, kind⟩

private theorem exists_of_closesAtEnd {n : Nat} (h : closesAtEnd n cs = true) : ∃ ds, cs = ds ++ [')'] := by
  fun_induction closesAtEnd n cs with
  | case1 n => cases h
  | case2 n cs ih | case4 n cs ih | case5 n c cs _ _ _ ih =>
    obtain ⟨ds, rfl⟩ := ih h
    exact ⟨_ :: ds, rfl⟩
  | case3 cs =>
    rw [List.isEmpty_iff.1 h]
    exact ⟨[], rfl⟩

private theorem isEnclosed_trim (s : String) : isEnclosed (Text.trim s) = isEnclosed s := by
  have once : Text.trimChars (Text.trim s).toList = Text.trimChars s.toList := by
    simpa [Text.trim] using congrArg String.toList (Text.trim_trim s)
  rw [isEnclosed, isEnclosed, once]

end Operand

namespace Spells

variable {l : Level} {t : Token} {ts us : List Token} {n : Nat} {f : Formula}

private theorem exists_connective_iff (h : Spells l ts n f) :
    (∃ t ∈ ts, ∃ op, t.kind = .connective op) ↔ ∃ op g g', .binary op g g' ∈ f.subformulas := by
  induction h with
  | var kind | const kind => simp [kind, Formula.subformulas]
  | paren left _ right ih => simpa [left, right] using ih
  | not kind _ ih => simpa [kind, Formula.subformulas] using ih
  | implies _ kind _ _ _ | chain _ _ kind _ _ _ =>
    exact ⟨fun _ => ⟨_, _, _, List.mem_cons_self⟩, fun _ => ⟨_, by simp, _, kind⟩⟩
  | tighter _ _ ih => exact ih

private theorem inside_of_atom {u : Token} (h : Spells .atom (t :: us ++ [u]) n f) :
    ∃ m, n = m + 1 ∧ Spells .loosest us m f := by
  generalize eq : t :: us ++ [u] = all at h
  cases h with
  | var _ | const _ => simp at eq
  | @paren opening closing inside m _ left within right =>
    obtain ⟨same, _⟩ := List.append_inj' eq rfl
    cases same
    exact ⟨m, rfl, within⟩
  | tighter below _ => exact absurd rfl below

end Spells

namespace Operand

variable {s : String} {f : Formula} {n : Nat}

private theorem exists_inside_of_isEnclosed (h : SpelledBy f n s) (enclosed : isEnclosed s = true) :
    ∃ t m, Text.trim s = "(" ++ t ++ ")" ∧ SpelledBy f m t ∧ n = m + 1 := by
  obtain ⟨ts, lexes, spells⟩ := h
  have trimmed := lexes.trimChars
  rw [isEnclosed] at enclosed
  split at enclosed
  · rename_i cs first
    rw [first] at trimmed
    have atom := atom_of_enclosed enclosed trimmed spells
    obtain ⟨ds, rfl⟩ := exists_of_closesAtEnd enclosed
    obtain ⟨t, us, rfl, _, rest⟩ := trimmed.of_leftParen
    obtain ⟨vs, u, rfl, _, inside⟩ := rest.of_concat_rightParen
    obtain ⟨m, depth, within⟩ := atom.inside_of_atom
    refine ⟨String.ofList ds, m, ?_, ⟨vs, by rwa [String.toList_ofList], within⟩, depth⟩
    rw [Text.trim, first, ← String.toList_inj, toList_parens, String.toList_ofList, String.toList_ofList]
    rfl
  · cases enclosed

/-- Both scans of a text that parses say what the parser finds: a connective is mentioned just if the formula has one
among its subformulas, and the text is enclosed just if, white space aside, it is a text of the same formula in
parentheses. -/
theorem scans_of_parse (parsed : Formula.parse s = .ok f) :
    (mentionsConnective s = true ↔ ∃ op g h, .binary op g h ∈ f.subformulas) ∧
      (isEnclosed s = true ↔ ∃ t, Text.trim s = "(" ++ t ++ ")" ∧ Formula.parse t = .ok f) := by
  obtain ⟨n, spelled, nests, high⟩ := Formula.spelledBy_of_parse parsed
  constructor
  · obtain ⟨ts, lexes, spells⟩ := spelled
    exact (holdsConnective_iff_of_lexes lexes).trans spells.exists_connective_iff
  · constructor
    · intro enclosed
      obtain ⟨t, m, whole, inside, rfl⟩ := exists_inside_of_isEnclosed spelled enclosed
      exact ⟨t, whole, Formula.parse_of_spelledBy inside (Nat.le_of_succ_le nests) high⟩
    · rintro ⟨t, whole, inside⟩
      obtain ⟨_, within, _, _⟩ := Formula.spelledBy_of_parse inside
      rw [← isEnclosed_trim, whole]
      exact isEnclosed_parens within

/-- A text that begins and ends with a parenthesis need not be enclosed. -/
theorem scans_of_two_parts :
    Formula.parse " (p)∧(q) " = .ok (.binary .and (.var "p") (.var "q")) ∧
      mentionsConnective " (p)∧(q) " = true ∧
      ¬∃ t, Text.trim " (p)∧(q) " = "(" ++ t ++ ")" ∧
        Formula.parse t = .ok (.binary .and (.var "p") (.var "q")) := by
  have parsed : Formula.parse " (p)∧(q) " = .ok (.binary .and (.var "p") (.var "q")) := by cbv
  obtain ⟨mentions, enclosed⟩ := scans_of_parse parsed
  refine ⟨parsed, mentions.2 ⟨_, _, _, List.mem_cons_self⟩, fun inside => ?_⟩
  have bare : isEnclosed " (p)∧(q) " = false := by cbv
  rw [enclosed.2 inside] at bare
  cases bare

end Operand

end NaturalDeduction
