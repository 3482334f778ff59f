import NaturalDeduction.Proofs.Formula.UniqueReading

/-!
The commands in LaTeX markup. A command goes on over all letters that follow its backslash, so it keeps its name just
if no letter follows. The blank of the negation sign and the blanks around connectives see to that; without the latter
a connective runs into the name after it, if that begins with a letter, and into nothing else.
-/

set_option autoImplicit false
set_option relaxedAutoImplicit false

namespace NaturalDeduction

namespace Text

/-- The commands in a marked-up text: each is a backslash with all the letters after it. -/
def commands : List Char → List (List Char)
  | [] => []
  | c :: cs => if c = '\\' then (c :: cs.takeWhile Char.isAlpha) :: commands cs else commands cs

private theorem commands_append_of_plain {cs : List Char} (plain : '\\' ∉ cs) (rest : List Char) :
    commands (cs ++ rest) = commands rest := by
  induction cs with
  | nil => rfl
  | cons c cs ih =>
    have other : c ≠ '\\' := fun same => plain (same ▸ List.mem_cons_self)
    rw [List.cons_append, commands, if_neg other, ih fun later => plain (List.mem_cons_of_mem _ later)]

private theorem commands_append_of_letters {letters : List Char} (alphabetic : ∀ c ∈ letters, c.isAlpha = true)
    (rest : List Char) :
    commands ('\\' :: letters ++ rest) = ('\\' :: letters ++ rest.takeWhile Char.isAlpha) :: commands rest := by
  have plain : '\\' ∉ letters := fun backslash => by cases alphabetic _ backslash
  rw [List.cons_append, commands, if_pos rfl, List.takeWhile_append_of_pos alphabetic,
    commands_append_of_plain plain, List.cons_append]

end Text

namespace Lexeme

/-- The command that stands for a sign, if it is a connective or a constant. -/
def command? : Lexeme → Option (List Char)
  | connective op => some (Script.latex.connective op).toList
  | not => some "\\neg".toList
  | const b => some (Script.latex.const b).toList
  | leftParen | rightParen | name _ => none

/-- A sign may stand before another one with no blank between them, unless it is a connective before a name that
begins with a letter. -/
def Apart : Lexeme → Lexeme → Prop
  | connective _, name x => ∀ c ∈ x.toList.head?, c.isAlpha = false
  | _, _ => True

variable {l : Lexeme} {c : List Char}

private theorem exists_letters (command : l.command? = some c) :
    ∃ letters, c = '\\' :: letters ∧ ∀ d ∈ letters, d.isAlpha = true := by
  have all : ∀ m ∈ signs, ∀ d ∈ m.command?, d.head? = some '\\' ∧ d.tail.all Char.isAlpha = true := by
    decide
  rcases l.name_or_mem_signs with ⟨x, rfl⟩ | sign
  · cases command
  obtain ⟨first, letters⟩ := all l sign c command
  cases c with
  | nil => cases first
  | cons d c =>
    cases first
    exact ⟨c, rfl, List.all_eq_true.1 letters⟩

/-- The letters that run into the command for a sign: there are none where a blank comes after it. -/
def fused (spaced : Bool) (l : Lexeme) (rest : List Char) : List Char :=
  match l with
  | not => []
  | connective _ => if spaced then [] else rest.takeWhile Char.isAlpha
  | _ => rest.takeWhile Char.isAlpha

private theorem commands_of_command (command : l.command? = some c) (spaced : Bool) (rest : List Char) :
    Text.commands (((⟨.latex, spaced⟩ : Style).lexeme l).toList ++ rest) =
      (c ++ l.fused spaced rest) :: Text.commands rest := by
  obtain ⟨letters, rfl, alphabetic⟩ := exists_letters command
  have bare := Text.commands_append_of_letters alphabetic rest
  have blank : Text.commands ('\\' :: letters ++ ' ' :: rest) = ('\\' :: letters ++ []) :: Text.commands rest :=
    Text.commands_append_of_letters alphabetic (' ' :: rest)
  cases l with
  | leftParen | rightParen | name x => cases command
  | const b =>
    rw [← Option.some.inj command] at bare ⊢
    exact bare
  | not =>
    have spelled : "\\neg ".toList = "\\neg".toList ++ [' '] := rfl
    rw [← Option.some.inj command] at blank ⊢
    rwa [Style.lexeme, Script.negation, spelled, List.append_assoc]
  | connective op =>
    rw [← Option.some.inj command] at bare blank ⊢
    cases spaced with
    | false => exact bare
    | true => simpa [Style.lexeme, fused, Text.commands] using blank

private theorem commands_of_other (other : l.command? = none) (named : ∀ x, l = name x → Formula.IsName x)
    (spaced : Bool) (rest : List Char) :
    Text.commands (((⟨.latex, spaced⟩ : Style).lexeme l).toList ++ rest) = Text.commands rest := by
  refine Text.commands_append_of_plain (fun backslash => ?_) rest
  cases l with
  | connective op | not | const b => cases other
  | leftParen | rightParen => simp [Style.lexeme] at backslash
  | name x => cases (named x rfl).isNameChar _ backslash

variable {p q : Place} {ls : List Lexeme}

private theorem isAlpha_eq_false_of_isNameChar {d : Char} (h : Token.isNameChar d = false) : d.isAlpha = false := by
  simp only [Token.isNameChar, Char.isAlphanum, Bool.or_eq_false_iff] at h
  exact h.1.1

private theorem head_isAlpha_iff_apart (op : Connective) (m : Lexeme) (named : ∀ x, m = name x → Formula.IsName x)
    (rest : List Char) :
    (∀ d ∈ (((⟨.latex, false⟩ : Style).lexeme m).toList ++ rest).head?, d.isAlpha = false) ↔
      (connective op).Apart m := by
  have signs : ∀ m ∈ signs, ((⟨.latex, false⟩ : Style).lexeme m).toList.head?.any (!·.isAlpha) = true := by
    decide
  rcases m.name_or_mem_signs with ⟨x, rfl⟩ | sign
  · obtain ⟨c, tail, eq, _⟩ := named x rfl
    simp [Style.lexeme, Apart, eq]
  · have apart : (connective op).Apart m := by
      cases m with
      | name x => simp [Lexeme.signs] at sign
      | leftParen | rightParen | connective op' | not | const b => trivial
    have head := signs m sign
    cases chars : ((⟨.latex, false⟩ : Style).lexeme m).toList with
    | nil => simp [chars] at head
    | cons d tail => simpa [chars, apart] using head

private theorem fused_eq_nil_iff (command : l.command? = some c) {spaced : Bool} {r : Place}
    (step : p.step l.token = some q) (walked : q.walk (ls.map token) = some r)
    (named : ∀ x, name x ∈ ls → Formula.IsName x) :
    l.fused spaced ((⟨.latex, spaced⟩ : Style).chars ls) = [] ↔ spaced = true ∨ ∀ m ∈ ls.head?, l.Apart m := by
  cases l with
  | leftParen | rightParen | name x => cases command
  | not => simp [fused, Apart]
  | const b =>
    -- after a constant no operand is due, and the signs that may follow begin with no letter
    have closed : q.due = false := by
      obtain ⟨due, opened⟩ := p
      cases due <;> cases step
      rfl
    have ends : ((⟨.latex, spaced⟩ : Style).chars ls).takeWhile Char.isAlpha = [] :=
      takeWhile_eq_nil_iff_head.2 fun d first =>
        isAlpha_eq_false_of_isNameChar (head_chars_of_walk closed walked d first)
    simp [fused, Apart, ends]
  | connective op =>
    cases spaced with
    | true => simp [fused]
    | false =>
      rw [fused, if_neg Bool.false_ne_true, takeWhile_eq_nil_iff_head]
      cases ls with
      | nil => simp
      | cons m ls =>
        rw [Style.chars_cons, head_isAlpha_iff_apart op m fun x eq => named x (by simp [eq])]
        simp

private theorem commands_chars_eq_iff {spaced : Bool} {r : Place} (walked : p.walk (ls.map token) = some r)
    (named : ∀ x, name x ∈ ls → Formula.IsName x) :
    Text.commands ((⟨.latex, spaced⟩ : Style).chars ls) = ls.filterMap command? ↔
      spaced = true ∨ ls.IsChain Apart := by
  induction ls generalizing p with
  | nil => simp [Text.commands]
  | cons l ls ih =>
    rw [List.map_cons, Place.walk_cons] at walked
    obtain ⟨q, step, later⟩ := Option.bind_eq_some_iff.1 walked
    have rest := ih later fun x member => named x (List.mem_cons_of_mem _ member)
    rw [Style.chars_cons, List.isChain_cons]
    cases command : l.command? with
    | none =>
      have apart : ∀ m ∈ ls.head?, l.Apart m := by
        cases l with
        | leftParen | rightParen | name x => exact fun _ _ => trivial
        | connective op | not | const b => cases command
      rw [commands_of_other command (fun x eq => named x (by simp [eq])),
        List.filterMap_cons_none command, rest, and_iff_right apart]
    | some c =>
      have unfused : l.fused spaced ((⟨.latex, spaced⟩ : Style).chars ls) = [] ↔ _ :=
        fused_eq_nil_iff command step later fun x member => named x (List.mem_cons_of_mem _ member)
      rw [commands_of_command command, List.filterMap_cons_some command, List.cons.injEq,
        List.append_right_eq_self, unfused, rest, or_and_left]

end Lexeme

namespace Formula

private theorem filterMap_command?_lexemesAt (required : Level) (f : Formula) :
    (f.lexemesAt required).filterMap Lexeme.command? = f.lexemes.filterMap Lexeme.command? := by
  rw [lexemesAt_eq]
  split
  · simp [List.filterMap_cons, Lexeme.command?]
  · rfl

private theorem filterMap_command?_lexemes (f : Formula) :
    f.lexemes.filterMap Lexeme.command? = f.inOrder.filterMap Lexeme.command? := by
  induction f with
  | var x => rw [lexemes_var, inOrder]
  | const b => rw [lexemes_const, inOrder]
  | not g ih => simp [lexemes_not, inOrder, Lexeme.command?, filterMap_command?_lexemesAt, ih]
  | binary op g h ihg ihh =>
    simp [lexemes_binary, inOrder, Lexeme.command?, filterMap_command?_lexemesAt, ihg, ihh]

/-- The commands in the LaTeX markup of a formula are those of its connectives and constants in order just if blanks
stand around the connectives, or no connective stands before a name that begins with a letter. -/
theorem commands_write_latex_iff {f : Formula} (named : f.WellNamed) (spaced : Bool) :
    Text.commands (f.write ⟨.latex, spaced⟩).toList = f.inOrder.filterMap Lexeme.command? ↔
      spaced = true ∨ f.lexemes.IsChain Lexeme.Apart := by
  rw [write, Style.toList_write, ← filterMap_command?_lexemes]
  exact Lexeme.commands_chars_eq_iff (Place.walk_of_spells f.spells_lexemes [])
    fun x member => named x (mem_names_of_mem_lexemesAt member)

/-- Blanks are not needed before a name that begins with a low line. -/
theorem commands_write_latex_iff_low_line :
    (binary .and (not (var "q")) (binary .or (var "_p") (const true))).WellNamed ∧
      Text.commands ((binary .and (not (var "q")) (binary .or (var "_p") (const true))).write
        ⟨.latex, false⟩).toList = ["\\neg".toList, "\\land".toList, "\\lor".toList, "\\top".toList] := by
  have named : (binary .and (not (var "q")) (binary .or (var "_p") (const true))).WellNamed := by
    intro x member
    rcases List.mem_cons.1 member with rfl | later
    · exact ⟨'q', [], rfl, by decide, by decide, by decide, by simp⟩
    · rw [List.mem_singleton.1 later]
      exact ⟨'_', ['p'], rfl, by decide, by decide, by decide, by simp [Token.isNameChar]⟩
  have signs : (binary .and (not (var "q")) (binary .or (var "_p") (const true))).lexemes =
      [.not, .name "q", .connective .and, .leftParen, .name "_p", .connective .or, .const true, .rightParen] := by
    decide
  refine ⟨named, (commands_write_latex_iff named false).2 (Or.inr ?_)⟩
  simp [signs, Lexeme.Apart]

/-- Without blanks the arrow runs into the name `p`, and what is found is the command for truth. -/
theorem arrow_fuses_with_name :
    (binary .implies (var "a") (var "p")).WellNamed ∧
      (binary .implies (var "a") (var "p")).write ⟨.latex, false⟩ = "a\\top" ∧
      Text.commands ((binary .implies (var "a") (var "p")).write ⟨.latex, false⟩).toList = ["\\top".toList] ∧
      (binary .implies (var "a") (var "p")).inOrder.filterMap Lexeme.command? = ["\\to".toList] := by
  refine ⟨fun x member => ?_, by decide⟩
  rcases List.mem_cons.1 member with rfl | later
  · exact ⟨'a', [], rfl, by decide, by decide, by decide, by simp⟩
  · rw [List.mem_singleton.1 later]
    exact ⟨'p', [], rfl, by decide, by decide, by decide, by simp⟩

end Formula

end NaturalDeduction
