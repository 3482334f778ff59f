import NaturalDeduction.Formula.Scan

/-!
Scanning one step at a time. The constructs that wait for a formula stand on a stack, the innermost first. A step
begins a production or hands a formula that was scanned to the construct on top, so that every number that the nesting
takes is seen at some step: it is raised in `Scanning.enter` alone, and lowered in `Scanning.step` alone.
-/

set_option autoImplicit false
set_option relaxedAutoImplicit false

namespace NaturalDeduction

/-- A construct that waits for a formula. -/
inductive Pending
  /-- A parenthesis waits for the formula inside. -/
  | paren (opening : Token)
  /-- A negation waits for its operand. -/
  | negation
  /-- The production of a connective waits for a left operand. -/
  | operand (op : Connective)
  /-- A connective after a left operand waits for the right one. -/
  | join (op : Connective) (left : Scanned)
  deriving DecidableEq

/-- Whether the formula that a construct waits for is nested more deeply than the construct. -/
def Pending.nests : Pending → Bool
  | .paren _ => true
  | .negation => true
  | .operand _ => false
  | .join op _ => op == .implies

/-- What is done next: a production begins, a formula is there, or an error has come up. -/
inductive Task
  | scan (l : Level) (p : Position)
  | give (r : Scanned)
  | fail (e : ParseError) (p : Position)
  deriving DecidableEq

namespace Task

def position : Task → Position
  | scan _ p => p
  | give r => r.next
  | fail _ p => p

def held (limit : Nat) (r : Scanned) : Task :=
  if r.height ≤ limit then give r else fail r.next.tooDeep r.next

/-- The outcome that a task amounts to where nothing waits for it. -/
def Returns : Task → Except ParseError Scanned → Prop
  | scan _ _, _ => False
  | give r, outcome => outcome = .ok r
  | fail e _, outcome => outcome = .error e

end Task

/-- A moment of scanning: the constructs that wait, and what is done next. -/
structure Scanning where
  pending : List Pending
  task : Task
  deriving DecidableEq

namespace Scanning

/-- The call of a production. -/
def call (l : Level) (p : Position) : Scanning :=
  ⟨[], .scan l p⟩

/-- Begins a production inside a construct that nests, if there is room for one more. -/
def enter (limit : Nat) (rest : List Pending) (construct : Pending) (l : Level) (p : Position) : Scanning :=
  if p.nesting < limit then ⟨construct :: rest, .scan l p.enter⟩ else ⟨rest, .fail p.tooDeep p⟩

def begin (limit : Nat) (rest : List Pending) : Level → Position → Scanning
  | .atom, p =>
    match p.peek.kind with
    | .name => ⟨rest, .give ⟨.var p.peek.text, 0, p.bump⟩⟩
    | .const b => ⟨rest, .give ⟨.const b, 0, p.bump⟩⟩
    | .leftParen => enter limit rest (.paren p.peek) .loosest p.bump
    | _ => ⟨rest, .fail p.unexpected p⟩
  | .negation, p =>
    if p.peek.kind = .not then enter limit rest .negation .negation p.bump else ⟨rest, .scan .atom p⟩
  | .binary op, p => ⟨.operand op :: rest, .scan (Level.binary op).tighter p⟩

def resume (limit : Nat) (rest : List Pending) : Pending → Scanned → Scanning
  | .paren opening, r =>
    if r.next.peek.kind = .rightParen then ⟨rest, .give { r with next := r.next.bump }⟩
    else ⟨rest, .fail (.unclosedParen opening.offset r.next.peek) r.next⟩
  | .negation, r => ⟨rest, .held limit r.negate⟩
  | .operand op, r =>
    if r.next.peek.kind = .connective op then
      if op = .implies then enter limit rest (.join op r) (.binary op) r.next.bump
      else ⟨.join op r :: rest, .scan (Level.binary op).tighter r.next.bump⟩
    else ⟨rest, .give r⟩
  | .join op left, r =>
    if op = .implies then ⟨rest, .held limit (Scanned.join op left r)⟩
    else ⟨.operand op :: rest, .held limit (Scanned.join op left r)⟩

/-- Whether the next step leaves a construct that nests. -/
def leaves : Scanning → Bool
  | ⟨construct :: _, .give _⟩ => construct.nests
  | _ => false

/-- The next step, if there is one. An error goes through all constructs that wait and leaves none of them. -/
def step (limit : Nat) : Scanning → Option Scanning
  | ⟨rest, .scan l p⟩ => some (begin limit rest l p)
  | ⟨construct :: rest, .give r⟩ => some (resume limit rest construct (if construct.nests then r.leave else r))
  | ⟨_ :: rest, .fail e p⟩ => some ⟨rest, .fail e p⟩
  | ⟨[], .give _⟩ => none
  | ⟨[], .fail _ _⟩ => none

def run (limit : Nat) : Nat → Scanning → Option Scanning
  | 0, s => some s
  | n + 1, s => (s.step limit).bind (run limit n)

end Scanning

end NaturalDeduction
