import NaturalDeduction.Token.Basic

set_option autoImplicit false
set_option relaxedAutoImplicit false

namespace NaturalDeduction.Token

def isNameStart (c : Char) : Bool :=
  c.isAlpha || c == '_'

def isNameChar (c : Char) : Bool :=
  c.isAlphanum || c == '_'

/-- The spellings that do not vary, in the order in which they are tried. -/
def spellings : List (List Char × TokenKind) :=
  [(['<', '-', '>'], .connective .iff),
   (['-', '>'], .connective .implies),
   (['/', '\\'], .connective .and),
   (['&', '&'], .connective .and),
   (['\\', '/'], .connective .or),
   (['|', '|'], .connective .or),
   (['('], .leftParen),
   ([')'], .rightParen),
   (['^'], .connective .and),
   (['∧'], .connective .and),
   (['|'], .connective .or),
   (['∨'], .connective .or),
   (['~'], .not),
   (['¬'], .not),
   (['!'], .not),
   (['→'], .connective .implies),
   (['↔'], .connective .iff),
   (['T'], .const true),
   (['⊤'], .const true),
   (['F'], .const false),
   (['⊥'], .const false)]

/-- A lexeme at the front of a text: its kind, its characters and what follows. -/
structure Lexed where
  kind : TokenKind
  text : List Char
  rest : List Char

def fixedLexeme? (table : List (List Char × TokenKind)) (cs : List Char) : Option Lexed :=
  table.findSome? fun (spelling, kind) =>
    if spelling.isPrefixOf cs then some ⟨kind, spelling, cs.drop spelling.length⟩ else none

def name? : List Char → Option Lexed
  | c :: cs =>
    if isNameStart c then
      some ⟨.name, c :: cs.takeWhile isNameChar, cs.dropWhile isNameChar⟩
    else none
  | [] => none

/-- The lexeme that the text begins with; a spelling goes before a name. -/
def lexeme? (cs : List Char) : Option Lexed :=
  (fixedLexeme? spellings cs).or (name? cs)

theorem spellings_ne_nil {entry : List Char × TokenKind} (h : entry ∈ spellings) :
    entry.1 ≠ [] := by
  have all : ∀ e ∈ spellings, e.1 ≠ [] := by decide
  exact all entry h

private theorem fixedLexeme?_length {table : List (List Char × TokenKind)} {cs : List Char}
    {l : Lexed} (nonempty : ∀ e ∈ table, e.1 ≠ []) (h : fixedLexeme? table cs = some l) :
    l.rest.length < cs.length := by
  obtain ⟨⟨spelling, kind⟩, member, eq⟩ := List.exists_of_findSome?_eq_some h
  by_cases starts : spelling.isPrefixOf cs = true
  · simp only [starts, if_true, Option.some.injEq] at eq
    have positive : 0 < spelling.length := List.length_pos_iff.2 (nonempty _ member)
    have within : spelling.length ≤ cs.length := (List.isPrefixOf_iff_prefix.1 starts).length_le
    rw [← eq, List.length_drop]
    omega
  · simp [starts] at eq

private theorem name?_length {cs : List Char} {l : Lexed} (h : name? cs = some l) :
    l.rest.length < cs.length := by
  cases cs with
  | nil => simp [name?] at h
  | cons c cs =>
    by_cases start : isNameStart c = true
    · simp only [name?, start, if_true, Option.some.injEq] at h
      rw [← h]
      exact Nat.lt_succ_of_le (List.dropWhile_sublist _).length_le
    · simp [name?, start] at h

theorem lexeme?_length {cs : List Char} {l : Lexed} (h : lexeme? cs = some l) :
    l.rest.length < cs.length := by
  rcases Option.or_eq_some_iff.1 h with fixed | ⟨_, named⟩
  · exact fixedLexeme?_length (fun _ member => spellings_ne_nil member) fixed
  · exact name?_length named

end NaturalDeduction.Token
