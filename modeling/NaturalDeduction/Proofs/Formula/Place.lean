import NaturalDeduction.Proofs.Formula.Spelling

/-!
The grammar read from left to right. Between two tokens of a formula there is a place: an operand is due at it
or not, and some parentheses are open around it. The place alone says which tokens may come next, so a walk
from place to place tells the lists of tokens that some formula starts with, and those that spell one.
-/

set_option autoImplicit false
set_option relaxedAutoImplicit false

namespace NaturalDeduction

/-- Tokens that spell a formula, however deep it is. -/
def IsFormula (ts : List Token) : Prop :=
  ∃ n f, Spells .loosest ts n f

/-- Tokens that may stand beside every connective: they spell an atom or a negation. -/
def IsOperand (ts : List Token) : Prop :=
  ∃ n f, Spells .negation ts n f

/-- Tokens that some formula starts with. -/
def Viable (ts : List Token) : Prop :=
  ∃ us, IsFormula (ts ++ us)

/-- An operand is due at the beginning and after `(`, `~` and every connective. -/
def OperandDue (ts : List Token) : Prop :=
  ∀ t ∈ ts.getLast?, t.kind = .leftParen ∨ t.kind = .not ∨ ∃ op, t.kind = .connective op

/-- Tokens that end with a formula right after a parenthesis, which is thus not closed. -/
def EndsInside (opening : Token) (ts : List Token) : Prop :=
  opening.kind = .leftParen ∧ ∃ before inside, ts = before ++ opening :: inside ∧ IsFormula inside

def Token.enclose (opened : List Token) (t : Token) : List Token :=
  match t.kind with
  | .leftParen => t :: opened
  | .rightParen => opened.tail
  | _ => opened

/-- The parentheses that are open after some tokens, the innermost first. -/
def openParens (ts : List Token) : List Token :=
  ts.foldl Token.enclose []

namespace Spells

private theorem extend {l : Level} {ts us : List Token} {m n : Nat} {f g : Formula} {op : Connective}
    {t : Token} (h : Spells l ts m f) (le : l.rank ≤ (Level.binary op).rank)
    (kind : t.kind = .connective op) (operand : Spells .negation us n g) :
    ∃ k e, Spells l (ts ++ t :: us) k e := by
  have loose (op : Connective) : (Level.binary op).rank < Level.negation.rank := by
    cases op <;> decide
  have right : Spells (.right op) us n g := operand.loosen (by cases op <;> decide)
  induction h with
  | var _ | const _ | paren _ _ _ =>
    exact absurd (Nat.lt_of_le_of_lt le (loose op)) (by decide)
  | not _ _ => exact absurd (Nat.lt_of_le_of_lt le (loose op)) (Nat.lt_irrefl _)
  | implies left sign _ _ ih =>
    obtain ⟨k, e, longer⟩ := ih le
    exact ⟨_, _, by simpa using Spells.implies left sign longer⟩
  | @chain op' _ _ _ _ _ _ _ grouping left sign whole _ ih =>
    by_cases same : op = op'
    · subst same
      have chained := Spells.chain grouping left sign whole
      rw [← Level.left_of_ne grouping] at chained
      exact ⟨_, _, .chain grouping chained kind right⟩
    · have tighter : (Level.right op').rank ≤ (Level.binary op).rank := by
        rw [Level.right_of_ne grouping, Level.rank_tighter (by simp)]
        refine Nat.lt_of_le_of_ne le fun eq => same ?_
        exact (Level.binary.inj (Level.rank_injective eq)).symm
      obtain ⟨k, e, longer⟩ := ih tighter
      exact ⟨_, _, by simpa using Spells.chain grouping left sign longer⟩
  | @tighter l _ _ _ below whole ih =>
    by_cases same : l = .binary op
    · subst same
      refine ⟨_, _, .binary (whole.loosen ?_) kind right⟩
      cases op <;> decide
    · have tighter : l.tighter.rank ≤ (Level.binary op).rank := by
        rw [Level.rank_tighter below]
        exact Nat.lt_of_le_of_ne le fun eq => same (Level.rank_injective eq)
      obtain ⟨k, e, longer⟩ := ih tighter
      exact ⟨k, e, .tighter below longer⟩

end Spells

namespace IsOperand

private theorem isFormula {ts : List Token} (h : IsOperand ts) : IsFormula ts := by
  obtain ⟨n, f, spells⟩ := h
  exact ⟨n, f, spells.whole⟩

private theorem of_name {t : Token} (kind : t.kind = .name) : IsOperand [t] :=
  ⟨_, _, .tighter (by decide) (.var kind)⟩

private theorem of_const {t : Token} {b : Bool} (kind : t.kind = .const b) : IsOperand [t] :=
  ⟨_, _, .tighter (by decide) (.const kind)⟩

private theorem not {t : Token} {ts : List Token} (kind : t.kind = .not) (h : IsOperand ts) :
    IsOperand (t :: ts) := by
  obtain ⟨n, f, spells⟩ := h
  exact ⟨_, _, .not kind spells⟩

private theorem paren {opening closing : Token} {ts : List Token} (left : opening.kind = .leftParen)
    (h : IsFormula ts) (right : closing.kind = .rightParen) :
    IsOperand (opening :: ts ++ [closing]) := by
  obtain ⟨n, f, spells⟩ := h
  exact ⟨_, _, .tighter (by decide) (.paren left spells right)⟩

end IsOperand

private theorem IsFormula.extend {t : Token} {op : Connective} {ts us : List Token} (h : IsFormula ts)
    (kind : t.kind = .connective op) (operand : IsOperand us) : IsFormula (ts ++ t :: us) := by
  obtain ⟨n, f, spells⟩ := h
  obtain ⟨m, g, right⟩ := operand
  exact spells.extend (Nat.not_lt.1 (Level.not_rank_lt_loosest _)) kind right

private theorem Viable.of_append {ts : List Token} (us : List Token) (h : Viable (ts ++ us)) :
    Viable ts := by
  obtain ⟨vs, whole⟩ := h
  exact ⟨us ++ vs, by rwa [← List.append_assoc]⟩

/-- A place in a list of tokens: whether an operand is due, and the open parentheses, the innermost first. -/
structure Place where
  due : Bool
  opened : List Token

namespace Place

def start : Place := ⟨true, []⟩

/-- The place after a token, unless none is allowed. -/
def step : Place → Token → Option Place
  | ⟨true, opened⟩, t =>
    match t.kind with
    | .name | .const _ => some ⟨false, opened⟩
    | .not => some ⟨true, opened⟩
    | .leftParen => some ⟨true, t :: opened⟩
    | _ => none
  | ⟨false, opened⟩, t =>
    match t.kind, opened with
    | .connective _, _ => some ⟨true, opened⟩
    | .rightParen, _ :: outer => some ⟨false, outer⟩
    | _, _ => none

def walk (p : Place) (ts : List Token) : Option Place :=
  ts.foldlM step p

@[simp] theorem walk_nil (p : Place) : p.walk [] = some p := rfl

@[simp] theorem walk_cons (p : Place) (t : Token) (ts : List Token) :
    p.walk (t :: ts) = (p.step t).bind (·.walk ts) :=
  List.foldlM_cons

@[simp] theorem walk_append (p : Place) (ts us : List Token) :
    p.walk (ts ++ us) = (p.walk ts).bind (·.walk us) :=
  List.foldlM_append

/-- The moves from a place over a token to the next place. -/
inductive Move : Place → Token → Place → Prop
  | name {opened : List Token} {t : Token} (kind : t.kind = .name) :
      Move ⟨true, opened⟩ t ⟨false, opened⟩
  | const {opened : List Token} {t : Token} {b : Bool} (kind : t.kind = .const b) :
      Move ⟨true, opened⟩ t ⟨false, opened⟩
  | not {opened : List Token} {t : Token} (kind : t.kind = .not) :
      Move ⟨true, opened⟩ t ⟨true, opened⟩
  | leftParen {opened : List Token} {t : Token} (kind : t.kind = .leftParen) :
      Move ⟨true, opened⟩ t ⟨true, t :: opened⟩
  | connective {opened : List Token} {t : Token} {op : Connective}
      (kind : t.kind = .connective op) :
      Move ⟨false, opened⟩ t ⟨true, opened⟩
  | rightParen {opening : Token} {opened : List Token} {t : Token} (kind : t.kind = .rightParen) :
      Move ⟨false, opening :: opened⟩ t ⟨false, opened⟩

private theorem Move.step_eq {p q : Place} {t : Token} (h : Move p t q) : p.step t = some q := by
  cases h with
  | name kind | const kind | not kind | leftParen kind | connective kind | rightParen kind =>
    simp [step, kind]

theorem move_of_step {p q : Place} {t : Token} (h : p.step t = some q) : Move p t q := by
  obtain ⟨due, opened⟩ := p
  cases due <;> cases kind : t.kind <;> simp only [step, kind] at h
  case true.name =>
    cases h
    exact .name kind
  case true.const =>
    cases h
    exact .const kind
  case true.not =>
    cases h
    exact .not kind
  case true.leftParen =>
    cases h
    exact .leftParen kind
  case false.connective =>
    cases h
    exact .connective kind
  case false.rightParen =>
    cases opened with
    | nil => cases h
    | cons opening outer =>
      cases h
      exact .rightParen kind
  all_goals cases h

theorem Move.walk_cons_eq {p q : Place} {t : Token} (h : Move p t q) (ts : List Token) :
    p.walk (t :: ts) = q.walk ts := by
  rw [walk_cons, h.step_eq, Option.bind_some]

/-- A formula leads from a place where an operand is due over it, with the same parentheses open. -/
theorem walk_of_spells {l : Level} {ts : List Token} {n : Nat} {f : Formula} (h : Spells l ts n f)
    (opened : List Token) : walk ⟨true, opened⟩ ts = some ⟨false, opened⟩ := by
  induction h generalizing opened with
  | var kind => rw [(Move.name kind).walk_cons_eq, walk_nil]
  | const kind => rw [(Move.const kind).walk_cons_eq, walk_nil]
  | paren left _ right ih =>
    rw [List.cons_append, (Move.leftParen left).walk_cons_eq, walk_append, ih, Option.bind_some,
      (Move.rightParen right).walk_cons_eq, walk_nil]
  | not kind _ ih => rw [(Move.not kind).walk_cons_eq, ih]
  | implies _ kind _ ihf ihg | chain _ _ kind _ ihf ihg =>
    rw [walk_append, ihf, Option.bind_some, (Move.connective kind).walk_cons_eq, ihg]
  | tighter _ _ ih => exact ih opened

/-- What stands before the innermost of the open parentheses and with it: before each of them stands what
any operand makes a formula of. -/
inductive Frames : List Token → List Token → Prop
  | nil : Frames [] []
  | cons {opening : Token} {opened outer begun : List Token} (frames : Frames opened outer)
      (begins : ∀ ws, IsOperand ws → IsFormula (begun ++ ws)) (kind : opening.kind = .leftParen) :
      Frames (opening :: opened) (outer ++ begun ++ [opening])

/-- The tokens that lead to a place: inside the open parentheses stands a formula, or what any operand makes
a formula of. -/
def Reached (p : Place) (ts : List Token) : Prop :=
  ∃ outer begun, ts = outer ++ begun ∧ Frames p.opened outer ∧
    if p.due then ∀ ws, IsOperand ws → IsFormula (begun ++ ws) else IsFormula begun

private theorem reached_start : Reached start [] :=
  ⟨[], [], rfl, .nil, fun _ operand => operand.isFormula⟩

private theorem Reached.move {p q : Place} {ts : List Token} {t : Token} (h : Reached p ts)
    (next : Move p t q) : Reached q (ts ++ [t]) := by
  obtain ⟨outer, begun, rfl, frames, begins⟩ := h
  cases next with
  | name kind => exact ⟨outer, begun ++ [t], by simp, frames, begins _ (.of_name kind)⟩
  | const kind => exact ⟨outer, begun ++ [t], by simp, frames, begins _ (.of_const kind)⟩
  | not kind =>
    refine ⟨outer, begun ++ [t], by simp, frames, fun ws operand => ?_⟩
    simpa using begins _ (operand.not kind)
  | leftParen kind =>
    exact ⟨_, [], by simp, frames.cons begins kind, fun _ operand => operand.isFormula⟩
  | connective kind =>
    refine ⟨outer, begun ++ [t], by simp, frames, fun ws operand => ?_⟩
    simpa using IsFormula.extend begins kind operand
  | rightParen kind =>
    cases frames with
    | @cons _ _ outer before frames awaits left =>
      refine ⟨outer, before ++ _, ?_, frames, awaits _ (.paren left begins kind)⟩
      simp

private theorem Reached.walk {p q : Place} {ts us : List Token} (h : Reached p ts)
    (walked : p.walk us = some q) : Reached q (ts ++ us) := by
  induction us generalizing p ts with
  | nil =>
    cases walked
    simpa using h
  | cons t us ih =>
    rw [walk_cons] at walked
    obtain ⟨next, step, rest⟩ := Option.bind_eq_some_iff.1 walked
    simpa using ih (h.move (move_of_step step)) rest

private theorem Frames.viable_of_isFormula {opened outer begun : List Token} (h : Frames opened outer)
    (whole : IsFormula begun) : Viable (outer ++ begun) := by
  induction h generalizing begun with
  | nil => exact ⟨[], by simpa using whole⟩
  | @cons opening _ outer before _ awaits left ih =>
    have operand : IsOperand (opening :: begun ++ [⟨.rightParen, ")", 0⟩]) := .paren left whole rfl
    refine Viable.of_append [⟨.rightParen, ")", 0⟩] ?_
    simpa using ih (awaits _ operand)

private theorem Reached.viable {p : Place} {ts : List Token} (h : Reached p ts) : Viable ts := by
  obtain ⟨outer, begun, rfl, frames, begins⟩ := h
  split at begins
  · have name : IsOperand [⟨.name, "p", 0⟩] := .of_name rfl
    refine Viable.of_append [⟨.name, "p", 0⟩] ?_
    simpa using frames.viable_of_isFormula (begins _ name)
  · exact frames.viable_of_isFormula begins

end Place

/-- A list of tokens spells a formula just if it can be walked over and leaves no operand due and no
parenthesis open. -/
theorem isFormula_iff_walk {ts : List Token} :
    IsFormula ts ↔ Place.start.walk ts = some ⟨false, []⟩ := by
  constructor
  · rintro ⟨n, f, spells⟩
    exact Place.walk_of_spells spells []
  · intro walked
    obtain ⟨outer, begun, rfl, frames, whole⟩ := Place.reached_start.walk walked
    cases frames
    exact whole

/-- Some formula starts with a list of tokens just if it can be walked over. -/
theorem viable_iff_walk {ts : List Token} : Viable ts ↔ ∃ p, Place.start.walk ts = some p := by
  constructor
  · rintro ⟨us, whole⟩
    rw [isFormula_iff_walk, Place.walk_append] at whole
    obtain ⟨p, walked, _⟩ := Option.bind_eq_some_iff.1 whole
    exact ⟨p, walked⟩
  · rintro ⟨p, walked⟩
    exact (Place.reached_start.walk walked).viable

section Places

variable {ts : List Token} {p : Place}

theorem openParens_of_walk (walked : Place.start.walk ts = some p) : openParens ts = p.opened := by
  have encloses {p q : Place} {us : List Token} (walked : p.walk us = some q) :
      us.foldl Token.enclose p.opened = q.opened := by
    induction us generalizing p with
    | nil =>
      cases walked
      rfl
    | cons t us ih =>
      rw [Place.walk_cons] at walked
      obtain ⟨next, step, rest⟩ := Option.bind_eq_some_iff.1 walked
      rw [List.foldl_cons, ← ih rest]
      cases Place.move_of_step step with
      | name kind | const kind | not kind | leftParen kind | connective kind | rightParen kind =>
        simp [Token.enclose, kind]
  exact encloses walked

theorem operandDue_iff_due (walked : Place.start.walk ts = some p) :
    OperandDue ts ↔ p.due = true := by
  rcases List.eq_nil_or_concat ts with rfl | ⟨init, t, rfl⟩
  · cases walked
    simp [OperandDue, Place.start]
  · rw [List.concat_eq_append] at walked ⊢
    rw [Place.walk_append] at walked
    obtain ⟨q, _, last⟩ := Option.bind_eq_some_iff.1 walked
    rw [Place.walk_cons] at last
    obtain ⟨r, step, rfl⟩ : ∃ r, q.step t = some r ∧ r = p := by
      simpa [Option.bind_eq_some_iff] using last
    cases Place.move_of_step step with
    | name kind | const kind | not kind | leftParen kind | connective kind | rightParen kind =>
      simp [OperandDue, kind]

theorem operandDue_iff_viable_append (viable : Viable ts) :
    OperandDue ts ↔ ∃ ws, IsOperand ws ∧ Viable (ts ++ ws) := by
  obtain ⟨⟨due, opened⟩, walked⟩ := viable_iff_walk.1 viable
  rw [operandDue_iff_due walked]
  simp only [viable_iff_walk, Place.walk_append, walked, Option.bind_some]
  constructor
  · rintro rfl
    exact ⟨[⟨.name, "p", 0⟩], .of_name rfl, _, (Place.Move.name rfl).walk_cons_eq []⟩
  · rintro ⟨ws, ⟨n, f, spells⟩, q, further⟩
    have whole := Place.walk_of_spells spells opened
    cases ws with
    | nil => exact absurd rfl spells.ne_nil
    | cons t ws =>
      rw [Place.walk_cons] at further whole
      obtain ⟨_, step, _⟩ := Option.bind_eq_some_iff.1 whole
      obtain ⟨_, step', _⟩ := Option.bind_eq_some_iff.1 further
      cases Place.move_of_step step with
      | name kind | const kind | not kind | leftParen kind =>
        cases due with
        | true => rfl
        | false => simp [Place.step, kind] at step'

/-- The tokens end inside a parenthesis just at a place where it is the innermost open one. -/
theorem endsInside_iff {opening : Token} (walked : Place.start.walk ts = some p) :
    EndsInside opening ts ↔ ∃ outer, p = ⟨false, opening :: outer⟩ := by
  constructor
  · rintro ⟨left, before, inside, rfl, n, f, spells⟩
    rw [Place.walk_append] at walked
    obtain ⟨q, _, further⟩ := Option.bind_eq_some_iff.1 walked
    rw [Place.walk_cons] at further
    obtain ⟨r, step, rest⟩ := Option.bind_eq_some_iff.1 further
    cases Place.move_of_step step with
    | leftParen kind =>
      rw [Place.walk_of_spells spells] at rest
      exact ⟨_, (Option.some.inj rest).symm⟩
    | name kind | const kind | not kind | connective kind | rightParen kind =>
      simp [left] at kind
  · rintro ⟨outer, rfl⟩
    obtain ⟨before, inside, rfl, frames, whole⟩ := Place.reached_start.walk walked
    cases frames with
    | cons _ _ left => exact ⟨left, _, inside, List.append_assoc _ _ _, whole⟩

end Places

end NaturalDeduction
