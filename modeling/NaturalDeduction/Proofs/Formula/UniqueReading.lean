import NaturalDeduction.Proofs.Formula.Comparison
import NaturalDeduction.Proofs.Formula.Place

/-!
Printed formulas are read in one way only, in every style. The characters tell the signs apart, one after the other,
if it is known at each sign whether an operand is due: no sign that may stand there begins another one, and a name goes
on as long as it can. Without this a sign may well be taken for another one, such as `\top` for `\to` and the name
`p`. The signs in turn determine the formula, however deep it is.
-/

set_option autoImplicit false
set_option relaxedAutoImplicit false

namespace NaturalDeduction

namespace Formula

private theorem spells_at {f : Formula} (bare : Spells f.level (f.lexemes.map Lexeme.token) f.nesting f)
    (required : Level) :
    Spells required ((f.lexemesAt required).map Lexeme.token) (f.nestingAt required) f := by
  rw [lexemesAt_eq, nestingAt]
  split
  · rw [List.map_append, List.map_cons]
    exact bare.whole.parens required
  · rename_i tight
    exact bare.loosen (Nat.not_lt.1 tight)

theorem spells_lexemes (f : Formula) : Spells f.level (f.lexemes.map Lexeme.token) f.nesting f := by
  induction f with
  | var x =>
    rw [lexemes_var]
    exact .var rfl
  | const b =>
    rw [lexemes_const]
    exact .const rfl
  | not g ih =>
    rw [lexemes_not]
    exact .not rfl (spells_at ih .negation)
  | binary op g h ihg ihh =>
    rw [lexemes_binary, List.map_append, List.map_cons]
    exact .binary (spells_at ihg (.left op)) rfl (spells_at ihh (.right op))

private theorem lexemes_injective : Function.Injective lexemes := by
  intro f g same
  have spells := g.spells_lexemes.whole
  rw [← same] at spells
  exact (f.spells_lexemes.whole.unique spells).1

theorem mem_names_of_mem_lexemesAt {f : Formula} {x : String} {required : Level}
    (member : .name x ∈ f.lexemesAt required) : x ∈ f.names := by
  have bare {f : Formula} {required : Level} (member : .name x ∈ f.lexemesAt required) :
      .name x ∈ f.lexemes := by
    rw [lexemesAt_eq] at member
    split at member
    · simpa using member
    · exact member
  induction f generalizing required with
  | var y => simpa [lexemes_var, names] using bare member
  | const b => simpa [lexemes_const] using bare member
  | not g ih =>
    have inside := bare member
    rw [lexemes_not] at inside
    exact ih (by simpa using inside)
  | binary op g h ihg ihh =>
    have inside := bare member
    rw [lexemes_binary] at inside
    rcases List.mem_append.1 inside with left | right
    · exact List.mem_append_left _ (ihg left)
    · exact List.mem_append_right _ (ihh (by simpa using right))

end Formula

namespace Lexeme

variable {style : Style} {l m : Lexeme} {p q : Place}

def signs : List Lexeme :=
  [leftParen, rightParen, not, const true, const false, connective .and, connective .or,
    connective .implies, connective .iff]

def opens : Lexeme → Bool
  | leftParen | not | name _ | const _ => true
  | rightParen | connective _ => false

theorem name_or_mem_signs (l : Lexeme) : (∃ x, l = name x) ∨ l ∈ signs := by
  cases l with
  | name x => exact Or.inl ⟨x, rfl⟩
  | const b => cases b <;> exact Or.inr (by decide)
  | connective op => cases op <;> exact Or.inr (by decide)
  | leftParen | rightParen | not => exact Or.inr (by decide)

private theorem eq_of_isPrefix_lexeme (style : Style) : ∀ l ∈ signs, ∀ m ∈ signs, l.opens = m.opens →
    (style.lexeme l).toList <+: (style.lexeme m).toList → l = m := by
  obtain ⟨script, spaced⟩ := style
  cases script <;> cases spaced <;> decide

private theorem head_signs (style : Style) : ∀ l ∈ signs, (style.lexeme l).toList.head?.any (fun c =>
    if l.opens then !Token.isNameStart c || c == 'T' || c == 'F' else !Token.isNameChar c) = true := by
  obtain ⟨script, spaced⟩ := style
  cases script <;> cases spaced <;> decide

private theorem exists_head_of_mem_signs (style : Style) (sign : l ∈ signs) :
    ∃ c tail, (style.lexeme l).toList = c :: tail ∧
      (l.opens = true → Token.isNameStart c = true → c = 'T' ∨ c = 'F') ∧
      (l.opens = false → Token.isNameChar c = false) := by
  have head := head_signs style l sign
  cases chars : (style.lexeme l).toList with
  | nil => simp [chars] at head
  | cons c tail =>
    refine ⟨c, tail, rfl, fun opens start => ?_, fun closes => ?_⟩
    · simpa [chars, opens, start] using head
    · simpa [chars, closes] using head

private theorem exists_head (style : Style) (named : ∀ x, l = name x → Formula.IsName x) :
    ∃ c tail, (style.lexeme l).toList = c :: tail := by
  rcases l.name_or_mem_signs with ⟨x, rfl⟩ | sign
  · obtain ⟨c, tail, eq, _⟩ := named x rfl
    exact ⟨c, tail, eq⟩
  · obtain ⟨c, tail, eq, _⟩ := exists_head_of_mem_signs style sign
    exact ⟨c, tail, eq⟩

private theorem name_append_ne {x : String} (isName : Formula.IsName x) (sign : m ∈ signs)
    (due : m.opens = true) (cs ds : List Char) :
    x.toList ++ cs ≠ (style.lexeme m).toList ++ ds := by
  intro same
  obtain ⟨c, tail, eq, start, notTrue, notFalse, _⟩ := isName
  obtain ⟨d, rest, chars, starts, _⟩ := exists_head_of_mem_signs style sign
  rw [eq, chars] at same
  obtain rfl : c = d := (List.cons.inj same).1
  rcases starts due start with isTrue | isFalse
  · exact notTrue isTrue
  · exact notFalse isFalse

private theorem name_eq_of_append {x y : String} (isName : Formula.IsName x) (isName' : Formula.IsName y)
    {cs ds : List Char} (ends : ∀ d ∈ cs.head?, Token.isNameChar d = false)
    (ends' : ∀ d ∈ ds.head?, Token.isNameChar d = false) (same : x.toList ++ cs = y.toList ++ ds) :
    x = y := by
  have taken := congrArg (List.takeWhile Token.isNameChar) same
  rw [takeWhile_append_of_stops isName.isNameChar ends,
    takeWhile_append_of_stops isName'.isNameChar ends'] at taken
  exact String.toList_inj.1 taken

private theorem eq_of_append {cs ds : List Char} (place : l.opens = m.opens)
    (named : ∀ x, l = name x → Formula.IsName x) (named' : ∀ x, m = name x → Formula.IsName x)
    (ends : ∀ x, l = name x → ∀ d ∈ cs.head?, Token.isNameChar d = false)
    (ends' : ∀ x, m = name x → ∀ d ∈ ds.head?, Token.isNameChar d = false)
    (same : (style.lexeme l).toList ++ cs = (style.lexeme m).toList ++ ds) : l = m := by
  rcases l.name_or_mem_signs with ⟨x, rfl⟩ | sign <;> rcases m.name_or_mem_signs with ⟨y, rfl⟩ | sign'
  · exact congrArg name
      (name_eq_of_append (named x rfl) (named' y rfl) (ends x rfl) (ends' y rfl) same)
  · exact absurd same (name_append_ne (named x rfl) sign' place.symm cs ds)
  · exact absurd same.symm (name_append_ne (named' y rfl) sign place ds cs)
  · have begins : (style.lexeme l).toList <+: (style.lexeme m).toList ++ ds := ⟨cs, same⟩
    rcases List.prefix_or_prefix_of_prefix begins (List.prefix_append _ ds) with left | right
    · exact eq_of_isPrefix_lexeme style l sign m sign' place left
    · exact (eq_of_isPrefix_lexeme style m sign' l sign place.symm right).symm

private theorem opens_of_step (step : p.step l.token = some q) :
    l.opens = p.due ∧ ∀ x, l = name x → q.due = false := by
  have move := Place.move_of_step step
  generalize own : l.token = t at move
  have kind : t.kind = l.kind := own ▸ rfl
  cases move with
  | name k | const k | not k | leftParen k | connective k | rightParen k =>
    rw [k] at kind
    cases l <;> cases kind
    exact ⟨rfl, by simp⟩

theorem head_chars_of_walk {ls : List Lexeme} (closed : p.due = false)
    (walked : p.walk (ls.map token) = some q) :
    ∀ d ∈ (style.chars ls).head?, Token.isNameChar d = false := by
  cases ls with
  | nil => simp
  | cons l ls =>
    rw [List.map_cons, Place.walk_cons] at walked
    obtain ⟨_, step, _⟩ := Option.bind_eq_some_iff.1 walked
    have closes : l.opens = false := (opens_of_step step).1.trans closed
    rcases l.name_or_mem_signs with ⟨x, rfl⟩ | sign
    · cases closes
    obtain ⟨c, tail, chars, _, ends⟩ := exists_head_of_mem_signs style sign
    intro d first
    rw [Style.chars_cons, chars] at first
    cases first
    exact ends closes

/-- Signs that lead on from one place are determined by their characters. -/
private theorem eq_of_chars {ls ms : List Lexeme} {r : Place} (walked : p.walk (ls.map token) = some q)
    (walked' : p.walk (ms.map token) = some r) (named : ∀ x, name x ∈ ls → Formula.IsName x)
    (named' : ∀ x, name x ∈ ms → Formula.IsName x) (same : style.chars ls = style.chars ms) : ls = ms := by
  induction ls generalizing ms p with
  | nil =>
    cases ms with
    | nil => rfl
    | cons m ms =>
      obtain ⟨c, tail, chars⟩ := exists_head (l := m) style fun x eq => named' x (by simp [eq])
      simp [chars] at same
  | cons l ls ih =>
    cases ms with
    | nil =>
      obtain ⟨c, tail, chars⟩ := exists_head (l := l) style fun x eq => named x (by simp [eq])
      simp [chars] at same
    | cons m ms =>
      rw [List.map_cons, Place.walk_cons] at walked walked'
      obtain ⟨next, step, later⟩ := Option.bind_eq_some_iff.1 walked
      obtain ⟨next', step', later'⟩ := Option.bind_eq_some_iff.1 walked'
      rw [Style.chars_cons, Style.chars_cons] at same
      -- both signs stand where the other one may, and if one is a name, what comes next does not go on it
      have first : l = m := by
        refine eq_of_append ((opens_of_step step).1.trans (opens_of_step step').1.symm)
          (fun x eq => named x (by simp [eq])) (fun x eq => named' x (by simp [eq]))
          (fun x eq => head_chars_of_walk ((opens_of_step step).2 x eq) later)
          (fun x eq => head_chars_of_walk ((opens_of_step step').2 x eq) later') same
      subst first
      rw [step] at step'
      cases step'
      rw [ih later later' (fun x member => named x (List.mem_cons_of_mem _ member))
        (fun x member => named' x (List.mem_cons_of_mem _ member)) (List.append_cancel_left same)]

end Lexeme

namespace Formula

/-- In every style, formulas of any depth whose names the lexer reads as one word have the same text just if they are
the same. -/
theorem write_eq_write_iff {f g : Formula} (named : f.WellNamed) (named' : g.WellNamed) (style : Style) :
    f.write style = g.write style ↔ f = g := by
  constructor
  · intro same
    have chars := congrArg String.toList same
    rw [write, write, Style.toList_write, Style.toList_write] at chars
    exact lexemes_injective (Lexeme.eq_of_chars
      (Place.walk_of_spells f.spells_lexemes []) (Place.walk_of_spells g.spells_lexemes [])
      (fun x member => named x (mem_names_of_mem_lexemesAt member))
      (fun x member => named' x (mem_names_of_mem_lexemesAt member)) chars)
  · rintro rfl
    rfl

/-- Written without blanks, the arrow before the name `p` looks like the constant for truth, and is still read as an
arrow. -/
theorem write_eq_write_iff_fused_arrow :
    (binary .implies (var "q") (var "p")).write ⟨.latex, false⟩ = "q\\top" ∧
      ∀ g : Formula, g.WellNamed → g.write ⟨.latex, false⟩ = "q\\top" →
        g = binary .implies (var "q") (var "p") := by
  have isName (c : Char) (start : Token.isNameStart c = true) (constant : c ≠ 'T' ∧ c ≠ 'F') :
      IsName (String.ofList [c]) := ⟨c, [], String.toList_ofList, start, constant.1, constant.2, by simp⟩
  have named : (binary .implies (var "q") (var "p")).WellNamed := by
    intro x member
    rcases List.mem_cons.1 member with rfl | later
    · exact isName 'q' (by decide) (by decide)
    · rw [List.mem_singleton.1 later]
      exact isName 'p' (by decide) (by decide)
  have text : (binary .implies (var "q") (var "p")).write ⟨.latex, false⟩ = "q\\top" := by decide
  refine ⟨text, fun g named' same => ?_⟩
  exact (write_eq_write_iff named' named ⟨.latex, false⟩).1 (same.trans text.symm)

end Formula

end NaturalDeduction
