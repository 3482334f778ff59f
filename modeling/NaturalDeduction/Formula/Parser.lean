import NaturalDeduction.Formula.Error
import NaturalDeduction.Formula.Level

/-!
The parser: one production for each level of binding. `<->`, `|` and `^` group to the left by a loop over
operands of the next level, `->` groups to the right, and an operand of `~` is again a negation or an atom.
Nesting counts the parentheses, negations and right sides of `->` around the cursor; it and the height of
the formula are held at a limit, which is `depthLimit` for whole lists of tokens.
-/

set_option autoImplicit false
set_option relaxedAutoImplicit false

namespace NaturalDeduction

/-- A place in a list of tokens: what is ahead before the end, the token that ends the input, and the number
of open constructs around the place. -/
structure Cursor where
  ahead : List Token
  stop : Token
  nesting : Nat
  deriving DecidableEq

namespace Cursor

/-- The token that ends a list of tokens: the first that does so, or one put at an offset. -/
def stopOf (finish : Nat) (ts : List Token) : Token :=
  (ts.find? Token.isEnd).getD (Token.endAt finish)

/-- The beginning of a list of tokens, whatever comes after its first end. -/
def endingAt (finish : Nat) (ts : List Token) : Cursor :=
  ⟨ts.takeWhile (!·.isEnd), stopOf finish ts, 0⟩

/-- The beginning of a list of tokens, where an end that is missing is put after the last one. There has to be an
offset for it in any case. -/
def ofTokens (ts : List Token) : Except Exhausted Cursor :=
  (Token.finishOf ts).map (endingAt · ts)

def peek (c : Cursor) : Token :=
  c.ahead.head?.getD c.stop

def enter (c : Cursor) : Cursor :=
  { c with nesting := c.nesting + 1 }

def leave (c : Cursor) : Cursor :=
  { c with nesting := c.nesting - 1 }

def tooDeep (c : Cursor) : ParseError :=
  .tooDeep c.peek.offset

end Cursor

/-- A formula that was read, its height and the cursor after it. -/
structure Reading where
  formula : Formula
  height : Nat
  next : Cursor
  deriving DecidableEq

abbrev ReadingBelow (bound : Nat) :=
  { r : Reading // r.next.ahead.length < bound }

namespace Reading

def leaf (f : Formula) (next : Cursor) : Reading :=
  ⟨f, 0, next⟩

def negate (r : Reading) : Reading :=
  ⟨.not r.formula, r.height + 1, r.next⟩

def join (op : Connective) (left : Formula) (height : Nat) (r : Reading) : Reading :=
  ⟨.binary op left r.formula, max height r.height + 1, r.next⟩

def leave (r : Reading) : Reading :=
  { r with next := r.next.leave }

def capped {bound : Nat} (limit : Nat) (r : Reading) (below : r.next.ahead.length < bound) :
    Except ParseError (ReadingBelow bound) :=
  if r.height ≤ limit then .ok ⟨r, below⟩ else .error r.next.tooDeep

end Reading

namespace Parser

theorem effort_lt {m n : Nat} {l : Level} (h : m < n) : 8 * m + l.slack < 8 * n := by
  have := l.slack_lt
  omega

mutual

/-- Reads a formula of a level or above, with nesting and height held at a limit. -/
def production (limit : Nat) :
    (l : Level) → (c : Cursor) → Except ParseError (ReadingBelow c.ahead.length)
  | .atom, ⟨[], _, _⟩ => .error .unexpectedEnd
  | .atom, ⟨t :: rest, stop, n⟩ =>
    match t.kind with
    | .name => .ok ⟨.leaf (.var t.text) ⟨rest, stop, n⟩, Nat.lt_succ_self _⟩
    | .const b => .ok ⟨.leaf (.const b) ⟨rest, stop, n⟩, Nat.lt_succ_self _⟩
    | .leftParen =>
      if n < limit then do
        match ← production limit .loosest (Cursor.enter ⟨rest, stop, n⟩) with
        | ⟨⟨f, h, ⟨u :: tail, stop, n⟩⟩, below⟩ =>
          if u.kind = .rightParen then
            .ok ⟨⟨f, h, Cursor.leave ⟨tail, stop, n⟩⟩,
              Nat.lt_succ_of_lt (Nat.lt_of_succ_lt below)⟩
          else .error (.unclosedParen t.offset u)
        | ⟨⟨_, _, ⟨[], stop, _⟩⟩, _⟩ => .error (.unclosedParen t.offset stop)
      else .error (Cursor.tooDeep ⟨rest, stop, n⟩)
    | _ => .error (.unexpectedToken t)
  | .negation, ⟨[], _, _⟩ => .error .unexpectedEnd
  | .negation, ⟨t :: rest, stop, n⟩ =>
    if t.kind = .not then
      if n < limit then do
        let ⟨r, below⟩ ← production limit .negation (Cursor.enter ⟨rest, stop, n⟩)
        r.leave.negate.capped limit (Nat.lt_succ_of_lt below)
      else .error (Cursor.tooDeep ⟨rest, stop, n⟩)
    else production limit .atom ⟨t :: rest, stop, n⟩
  | .binary .implies, c => do
    match ← production limit (Level.binary .implies).tighter c with
    | ⟨⟨f, h, ⟨[], stop, n⟩⟩, below⟩ => .ok ⟨⟨f, h, ⟨[], stop, n⟩⟩, below⟩
    | ⟨⟨f, h, ⟨t :: rest, stop, n⟩⟩, below⟩ =>
      if t.kind = .connective .implies then
        if n < limit then do
          let ⟨r, lower⟩ ← production limit (.binary .implies) (Cursor.enter ⟨rest, stop, n⟩)
          (Reading.join .implies f h r.leave).capped limit
            (Nat.lt_trans lower (Nat.lt_of_succ_lt below))
        else .error (Cursor.tooDeep ⟨rest, stop, n⟩)
      else .ok ⟨⟨f, h, ⟨t :: rest, stop, n⟩⟩, below⟩
  | .binary op, c => do
    let ⟨left, below⟩ ← production limit (Level.binary op).tighter c
    let ⟨r, lower⟩ ← chain limit op left
    .ok ⟨r, Nat.lt_of_lt_of_le lower below⟩
termination_by l c => 8 * c.ahead.length + l.slack
decreasing_by
  · exact Nat.lt_add_right _ (effort_lt (Nat.lt_succ_self _))
  · exact Nat.lt_add_right _ (effort_lt (Nat.lt_succ_self _))
  · exact Nat.add_lt_add_left (by decide) _
  · exact Nat.add_lt_add_left (by decide) _
  · exact Nat.lt_add_right _ (effort_lt (Nat.lt_of_succ_lt below))
  · exact Nat.add_lt_add_left (Level.slack_tighter op) _
  · exact Nat.lt_add_right _ (Nat.mul_lt_mul_of_pos_left below (by decide))

/-- Goes on from a left operand over every further operand of a connective. -/
def chain (limit : Nat) : (op : Connective) → (left : Reading) →
    Except ParseError (ReadingBelow (left.next.ahead.length + 1))
  | _, ⟨f, h, ⟨[], stop, n⟩⟩ => .ok ⟨⟨f, h, ⟨[], stop, n⟩⟩, Nat.lt_succ_self _⟩
  | op, ⟨f, h, ⟨t :: rest, stop, n⟩⟩ =>
    if t.kind = .connective op then do
      let ⟨right, below⟩ ← production limit (Level.binary op).tighter ⟨rest, stop, n⟩
      let ⟨joined, lower⟩ ← (Reading.join op f h right).capped limit below
      let ⟨r, last⟩ ← chain limit op joined
      .ok ⟨r, Nat.lt_succ_of_lt (Nat.lt_succ_of_lt (Nat.lt_of_lt_of_le last lower))⟩
    else .ok ⟨⟨f, h, ⟨t :: rest, stop, n⟩⟩, Nat.lt_succ_self _⟩
termination_by _ left => 8 * left.next.ahead.length
decreasing_by
  · exact effort_lt (Nat.lt_succ_self _)
  · exact Nat.mul_lt_mul_of_pos_left (Nat.lt_succ_of_lt lower) (by decide)

end

end Parser

def Formula.ofCursor (c : Cursor) : Except ParseError Formula := do
  let ⟨r, _⟩ ← Parser.production depthLimit .loosest c
  match r.next.ahead with
  | [] => .ok r.formula
  | found :: _ => .error (.trailingInput found)

/-- The formula that a whole list of tokens spells. -/
def Formula.ofTokens (ts : List Token) : Except Exhausted (Except ParseError Formula) :=
  (Cursor.ofTokens ts).map Formula.ofCursor

/-- The formula that a text spells. -/
def Formula.parse (s : String) : Except FormulaError Formula :=
  match tokenize s with
  | .error e => .error (.lexical e)
  | .ok ts =>
    match Formula.ofCursor (.endingAt s.utf8ByteSize ts) with
    | .error e => .error (.grammatical e)
    | .ok f => .ok f

end NaturalDeduction
