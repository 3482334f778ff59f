import NaturalDeduction.Formula.Parser

set_option autoImplicit false
set_option relaxedAutoImplicit false

namespace NaturalDeduction

/-- A position in a list of tokens: the number of tokens taken, the offset of the end that may be missing, and the
number of open constructs. -/
structure Position where
  tokens : List Token
  taken : Nat
  finish : Nat
  nesting : Nat
  deriving DecidableEq

namespace Position

/-- The position before the first token. It needs an offset for an end after the last one, whether or not the tokens
have an end. -/
def start (ts : List Token) : Except Exhausted Position :=
  (Token.finishOf ts).map fun finish => ⟨ts, 0, finish, 0⟩

/-- The token ahead, or an end where there is none. -/
def peek (p : Position) : Token :=
  p.tokens[p.taken]?.getD (Token.endAt p.finish)

def bump (p : Position) : Position :=
  if p.taken < p.tokens.length then { p with taken := p.taken + 1 } else p

def enter (p : Position) : Position :=
  { p with nesting := p.nesting + 1 }

def leave (p : Position) : Position :=
  { p with nesting := p.nesting - 1 }

def unexpected (p : Position) : ParseError :=
  if p.peek.isEnd then .unexpectedEnd else .unexpectedToken p.peek

def tooDeep (p : Position) : ParseError :=
  .tooDeep p.peek.offset

def left (p : Position) : Nat :=
  p.tokens.length - p.taken

@[simp] theorem peek_leave (p : Position) : p.leave.peek = p.peek := rfl

private theorem left_bump_le (p : Position) : p.bump.left ≤ p.left := by
  unfold bump
  split
  · simp only [left]
    omega
  · exact Nat.le_refl _

theorem taken_lt_of_peek {p : Position} (h : p.peek.kind ≠ .endOfInput) : p.taken < p.tokens.length := by
  refine Nat.lt_of_not_le fun past => h ?_
  rw [peek, List.getElem?_eq_none past]
  rfl

theorem left_bump_lt {p : Position} (h : p.peek.kind ≠ .endOfInput) : p.bump.left < p.left := by
  have within := taken_lt_of_peek h
  rw [bump, if_pos within]
  simp only [left]
  omega

end Position

structure Scanned where
  formula : Formula
  height : Nat
  next : Position
  deriving DecidableEq

abbrev ScannedBelow (bound : Nat) :=
  { r : Scanned // r.next.left < bound }

namespace Scanned

def leave (r : Scanned) : Scanned :=
  { r with next := r.next.leave }

def negate (r : Scanned) : Scanned :=
  ⟨.not r.formula, r.height + 1, r.next⟩

def join (op : Connective) (left r : Scanned) : Scanned :=
  ⟨.binary op left.formula r.formula, max left.height r.height + 1, r.next⟩

def capped {bound : Nat} (limit : Nat) (r : Scanned) (below : r.next.left < bound) :
    Except ParseError (ScannedBelow bound) :=
  if r.height ≤ limit then .ok ⟨r, below⟩ else .error r.next.tooDeep

end Scanned

namespace Parser

mutual

/-- Scans a formula of a level or above, with nesting and height held at a limit. -/
def scan (limit : Nat) : (l : Level) → (p : Position) → Except ParseError (ScannedBelow p.left)
  | .atom, p =>
    match kind : p.peek.kind with
    | .name => .ok ⟨⟨.var p.peek.text, 0, p.bump⟩, Position.left_bump_lt (by simp [kind])⟩
    | .const b => .ok ⟨⟨.const b, 0, p.bump⟩, Position.left_bump_lt (by simp [kind])⟩
    | .leftParen =>
      have shorter : p.bump.left < p.left := Position.left_bump_lt (by simp [kind])
      if p.bump.nesting < limit then do
        let ⟨r, below⟩ ← scan limit .loosest p.bump.enter
        if r.next.leave.peek.kind = .rightParen then
          .ok ⟨{ r with next := r.next.leave.bump },
            Nat.lt_of_le_of_lt (Position.left_bump_le _) (Nat.lt_trans below shorter)⟩
        else .error (.unclosedParen p.peek.offset r.next.leave.peek)
      else .error p.bump.tooDeep
    | _ => .error p.unexpected
  | .negation, p =>
    if kind : p.peek.kind = .not then
      have shorter : p.bump.left < p.left := Position.left_bump_lt (by simp [kind])
      if p.bump.nesting < limit then do
        let ⟨r, below⟩ ← scan limit .negation p.bump.enter
        r.leave.negate.capped limit (Nat.lt_trans below shorter)
      else .error p.bump.tooDeep
    else scan limit .atom p
  | .binary .implies, p => do
    let ⟨r, below⟩ ← scan limit (Level.binary .implies).tighter p
    if kind : r.next.peek.kind = .connective .implies then
      have shorter : r.next.bump.left < r.next.left := Position.left_bump_lt (by simp [kind])
      if r.next.bump.nesting < limit then do
        let ⟨right, lower⟩ ← scan limit (.binary .implies) r.next.bump.enter
        (Scanned.join .implies r right.leave).capped limit
          (Nat.lt_trans lower (Nat.lt_trans shorter below))
      else .error r.next.bump.tooDeep
    else .ok ⟨r, below⟩
  | .binary op, p => do
    let ⟨left, below⟩ ← scan limit (Level.binary op).tighter p
    let ⟨r, lower⟩ ← scanChain limit op left
    .ok ⟨r, Nat.lt_of_lt_of_le lower below⟩
termination_by l p => 8 * p.left + l.slack
decreasing_by
  · exact Nat.lt_add_right _ (effort_lt shorter)
  · exact Nat.lt_add_right _ (effort_lt shorter)
  · exact Nat.add_lt_add_left (by decide) _
  · exact Nat.add_lt_add_left (by decide) _
  · exact Nat.lt_add_right _ (effort_lt (Nat.lt_trans shorter below))
  · exact Nat.add_lt_add_left (Level.slack_tighter op) _
  · exact Nat.lt_add_right _ (Nat.mul_lt_mul_of_pos_left below (by decide))

def scanChain (limit : Nat) (op : Connective) (left : Scanned) :
    Except ParseError (ScannedBelow (left.next.left + 1)) :=
  if kind : left.next.peek.kind = .connective op then do
    have shorter : left.next.bump.left < left.next.left := Position.left_bump_lt (by simp [kind])
    let ⟨right, below⟩ ← scan limit (Level.binary op).tighter left.next.bump
    let ⟨joined, lower⟩ ← (Scanned.join op left right).capped limit below
    let ⟨r, last⟩ ← scanChain limit op joined
    .ok ⟨r, Nat.lt_succ_of_lt (Nat.lt_of_lt_of_le last (Nat.le_trans lower (Nat.le_of_lt shorter)))⟩
  else .ok ⟨left, Nat.lt_succ_self _⟩
termination_by 8 * left.next.left
decreasing_by
  · exact effort_lt shorter
  · exact Nat.mul_lt_mul_of_pos_left (Nat.lt_trans lower shorter) (by decide)

end

end Parser

def Formula.scanFrom (p : Position) : Except ParseError Formula := do
  let ⟨r, _⟩ ← Parser.scan depthLimit .loosest p
  if r.next.peek.isEnd then .ok r.formula else .error (.trailingInput r.next.peek)

/-- The formula that a whole list of tokens spells up to its end. -/
def Formula.scan (ts : List Token) : Except Exhausted (Except ParseError Formula) :=
  (Position.start ts).map Formula.scanFrom

end NaturalDeduction
