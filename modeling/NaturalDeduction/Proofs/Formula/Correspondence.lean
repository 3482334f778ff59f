import NaturalDeduction.Proofs.Formula.Acceptance
import NaturalDeduction.Proofs.Token.Segmentation

set_option autoImplicit false
set_option relaxedAutoImplicit false

namespace NaturalDeduction

variable {R : Token → Token → Prop}

/-- Two errors of one cause that name tokens which correspond. -/
inductive ParseError.Corresponds (R : Token → Token → Prop) : ParseError → ParseError → Prop
  | unexpectedToken {t u : Token} (found : R t u) :
      Corresponds R (.unexpectedToken t) (.unexpectedToken u)
  | unexpectedEnd : Corresponds R .unexpectedEnd .unexpectedEnd
  | unclosedParen {opening opening' t u : Token} (opened : R opening opening') (found : R t u) :
      Corresponds R (.unclosedParen opening.offset t) (.unclosedParen opening'.offset u)
  | trailingInput {t u : Token} (found : R t u) :
      Corresponds R (.trailingInput t) (.trailingInput u)
  | tooDeep {t u : Token} (found : R t u) : Corresponds R (.tooDeep t.offset) (.tooDeep u.offset)

/-- Both outcomes are results that go together, or both are errors that correspond. -/
inductive Alike {α : Type} (R : Token → Token → Prop) (S : α → α → Prop) :
    Except ParseError α → Except ParseError α → Prop
  | ok {a b : α} (results : S a b) : Alike R S (.ok a) (.ok b)
  | error {e e' : ParseError} (errors : e.Corresponds R e') : Alike R S (.error e) (.error e')

private theorem Alike.bind {α β : Type} {S : α → α → Prop} {S' : β → β → Prop} {x y : Except ParseError α}
    {f g : α → Except ParseError β} (h : Alike R S x y)
    (next : ∀ a b, x = .ok a → S a b → Alike R S' (f a) (g b)) : Alike R S' (x.bind f) (y.bind g) := by
  cases h with
  | ok results => exact next _ _ rfl results
  | error errors => exact .error errors

structure Cursor.Corresponds (R : Token → Token → Prop) (c c' : Cursor) : Prop where
  ahead : List.Forall₂ R c.ahead c'.ahead
  stop : R c.stop c'.stop
  nesting : c.nesting = c'.nesting

private theorem Cursor.Corresponds.tooDeep {c c' : Cursor} (h : c.Corresponds R c') :
    c.tooDeep.Corresponds R c'.tooDeep := by
  obtain ⟨ahead, stop, n⟩ := c
  obtain ⟨ahead', stop', n'⟩ := c'
  obtain ⟨tokens, stops, _⟩ := h
  cases tokens with
  | nil => exact .tooDeep stops
  | cons first _ => exact .tooDeep first

structure Reading.Corresponds (R : Token → Token → Prop) (r r' : Reading) : Prop where
  formula : r.formula = r'.formula
  height : r.height = r'.height
  next : r.next.Corresponds R r'.next

namespace Reading.Corresponds

variable {r r' : Reading} {limit : Nat}

private theorem leave (h : r.Corresponds R r') : r.leave.Corresponds R r'.leave :=
  ⟨h.formula, h.height, h.next.ahead, h.next.stop, congrArg (· - 1) h.next.nesting⟩

private theorem negate (h : r.Corresponds R r') : r.negate.Corresponds R r'.negate :=
  ⟨congrArg Formula.not h.formula, congrArg (· + 1) h.height, h.next⟩

private theorem join {op : Connective} {f : Formula} {height : Nat} (h : r.Corresponds R r') :
    (Reading.join op f height r).Corresponds R (Reading.join op f height r') :=
  ⟨congrArg (Formula.binary op f) h.formula, congrArg (max height · + 1) h.height, h.next⟩

private theorem held (h : r.Corresponds R r') :
    Alike R (Reading.Corresponds R) (r.held limit) (r'.held limit) := by
  unfold Reading.held
  rw [h.height]
  split
  · exact .ok h
  · exact .error h.next.tooDeep

private theorem close {opening opening' : Token} (same : ∀ t u, R t u → t.word = u.word)
    (opened : R opening opening') (h : r.Corresponds R r') :
    Alike R (Reading.Corresponds R) (r.close opening) (r'.close opening') := by
  obtain ⟨f, height, ⟨ahead, stop, n⟩⟩ := r
  obtain ⟨f', height', ⟨ahead', stop', n'⟩⟩ := r'
  obtain ⟨rfl, rfl, tokens, stops, rfl⟩ := h
  cases tokens with
  | nil => exact .error (.unclosedParen opened stops)
  | @cons t u rest rest' first later =>
    have kind : t.kind = u.kind := congrArg Prod.fst (same t u first)
    simp only [Reading.close, kind]
    split
    · exact .ok ⟨rfl, rfl, later, stops, rfl⟩
    · exact .error (.unclosedParen opened first)

private theorem ofReading (h : r.Corresponds R r') :
    Alike R Eq (Formula.ofReading r) (Formula.ofReading r') := by
  obtain ⟨f, height, ⟨ahead, stop, n⟩⟩ := r
  obtain ⟨f', height', ⟨ahead', stop', n'⟩⟩ := r'
  obtain ⟨rfl, _, tokens, _, _⟩ := h
  cases tokens with
  | nil => exact .ok rfl
  | cons first _ => exact .error (.trailingInput first)

end Reading.Corresponds

namespace Parser

variable {limit : Nat}

private theorem length_lt_of_read {l : Level} {c : Cursor} {r : Reading} (h : read limit l c = .ok r) :
    r.next.ahead.length < c.ahead.length := by
  obtain ⟨⟨_, below⟩, _, rfl⟩ := Except.exists_of_map_eq_ok h
  exact below

mutual

private theorem alike_read (same : ∀ t u, R t u → t.word = u.word) {l : Level} {c c' : Cursor}
    (h : c.Corresponds R c') :
    Alike R (Reading.Corresponds R) (read limit l c) (read limit l c') := by
  match l, c, c', h with
  | .atom, ⟨[], _, _⟩, ⟨[], _, _⟩, _ =>
    rw [read_nil_atom, read_nil_atom]
    exact .error .unexpectedEnd
  | .atom, ⟨t :: rest, stop, n⟩, ⟨u :: rest', stop', _⟩, ⟨.cons first later, stops, rfl⟩ =>
    have after (k : Nat) : Cursor.Corresponds R ⟨rest, stop, k⟩ ⟨rest', stop', k⟩ :=
      ⟨later, stops, rfl⟩
    have kind : u.kind = t.kind := (congrArg Prod.fst (same t u first)).symm
    have text : t.text = u.text := congrArg Prod.snd (same t u first)
    cases own : t.kind with
    | name =>
      rw [read_name own, read_name (kind.trans own), text]
      exact .ok ⟨rfl, rfl, after n⟩
    | const b =>
      rw [read_const own, read_const (kind.trans own)]
      exact .ok ⟨rfl, rfl, after n⟩
    | leftParen =>
      rw [read_leftParen own, read_leftParen (kind.trans own)]
      split
      · exact (alike_read same (after (n + 1))).bind fun _ _ _ inner => inner.close same first
      · exact .error (after n).tooDeep
    | rightParen | connective op | not | endOfInput =>
      rw [read_atom_of_unexpected (by simp [own]) (by simp [own]) (by simp [own]),
        read_atom_of_unexpected (by simp [kind, own]) (by simp [kind, own]) (by simp [kind, own])]
      exact .error (.unexpectedToken first)
  | .negation, ⟨[], _, _⟩, ⟨[], _, _⟩, h =>
    rw [read_negation_eq_atom (by simp), read_negation_eq_atom (by simp)]
    exact alike_read same h
  | .negation, ⟨t :: rest, stop, n⟩, ⟨u :: rest', stop', _⟩, ⟨.cons first later, stops, rfl⟩ =>
    have after (k : Nat) : Cursor.Corresponds R ⟨rest, stop, k⟩ ⟨rest', stop', k⟩ :=
      ⟨later, stops, rfl⟩
    have whole : Cursor.Corresponds R ⟨t :: rest, stop, n⟩ ⟨u :: rest', stop', n⟩ :=
      ⟨.cons first later, stops, rfl⟩
    have kind : u.kind = t.kind := (congrArg Prod.fst (same t u first)).symm
    by_cases own : t.kind = .not
    · rw [read_not own, read_not (kind.trans own)]
      split
      · exact (alike_read same (after (n + 1))).bind fun _ _ _ operand => operand.leave.negate.held
      · exact .error (after n).tooDeep
    · rw [read_negation_eq_atom (by simpa using own), read_negation_eq_atom (by simpa [kind] using own)]
      exact alike_read same whole
  | .binary op, c, c', h =>
    rw [read_binary, read_binary]
    refine (alike_read same h).bind fun left left' first operand => ?_
    have shorter := length_lt_of_read first
    exact alike_resume same operand
termination_by 8 * c.ahead.length + l.slack
decreasing_by
  · exact Nat.lt_add_right _ (effort_lt (Nat.lt_succ_self _))
  · exact Nat.add_lt_add_left (by decide) _
  · exact Nat.lt_add_right _ (effort_lt (Nat.lt_succ_self _))
  · exact Nat.add_lt_add_left (by decide) _
  · exact Nat.add_lt_add_left (Level.slack_tighter op) _
  · exact Nat.lt_add_right _ (Nat.mul_lt_mul_of_pos_left shorter (by decide))

theorem alike_resume (same : ∀ t u, R t u → t.word = u.word) {op : Connective} {r r' : Reading}
    (h : r.Corresponds R r') :
    Alike R (Reading.Corresponds R) (resume limit op r) (resume limit op r') := by
  match r, r', h with
  | ⟨f, height, ⟨[], _, _⟩⟩, ⟨_, _, ⟨[], _, _⟩⟩, h =>
    rw [resume_of_ne (by simp), resume_of_ne (by simp)]
    exact .ok h
  | ⟨f, height, ⟨t :: rest, stop, n⟩⟩, ⟨_, _, ⟨u :: rest', stop', _⟩⟩,
      ⟨rfl, rfl, .cons first later, stops, rfl⟩ =>
    have after (k : Nat) : Cursor.Corresponds R ⟨rest, stop, k⟩ ⟨rest', stop', k⟩ :=
      ⟨later, stops, rfl⟩
    have kind : u.kind = t.kind := (congrArg Prod.fst (same t u first)).symm
    by_cases own : t.kind = .connective op
    · by_cases grouping : op = .implies
      · subst grouping
        rw [resume_implies own, resume_implies (kind.trans own)]
        split
        · exact (alike_read same (after (n + 1))).bind fun _ _ _ right => right.leave.join.held
        · exact .error (after n).tooDeep
      · -- what is read on the right is joined at once, so the chain goes on from a reading with fewer tokens ahead
        rw [resume_chain grouping own, resume_chain grouping (kind.trans own)]
        refine ((alike_read same (after n)).bind fun _ _ _ right => right.join.held).bind
          fun joined joined' second operand => ?_
        obtain ⟨right, ends, held⟩ := Except.exists_of_bind_eq_ok second
        have shorter : joined.next.ahead.length < rest.length := by
          rw [← (Reading.held_eq_ok held).2]
          exact length_lt_of_read ends
        exact alike_resume same operand
    · rw [resume_of_ne (by simpa using own), resume_of_ne (by simpa [kind] using own)]
      exact .ok ⟨rfl, rfl, .cons first later, stops, rfl⟩
termination_by 8 * r.next.ahead.length
decreasing_by
  · exact effort_lt (Nat.lt_succ_self _)
  · exact effort_lt (Nat.lt_succ_self _)
  · exact Nat.mul_lt_mul_of_pos_left (Nat.lt_succ_of_lt shorter) (by decide)

end

end Parser

private theorem Cursor.corresponds_endingAt {ts us : List Token} (same : ∀ t u, R t u → t.word = u.word)
    (h : List.Forall₂ R ts us) (ends : ∃ t ∈ ts, t.isEnd = true) (m n : Nat) :
    (endingAt m ts).Corresponds R (endingAt n us) := by
  have places : List.Forall₂ R (ts.takeWhile (!·.isEnd)) (us.takeWhile (!·.isEnd)) ∧
      ∃ t u, ts.find? Token.isEnd = some t ∧ us.find? Token.isEnd = some u ∧ R t u := by
    induction h with
    | nil => simp at ends
    | @cons t u ts us first _ ih =>
      have kind : t.kind = u.kind := congrArg Prod.fst (same t u first)
      have both : t.isEnd = u.isEnd := congrArg (· == .endOfInput) kind
      cases own : t.isEnd with
      | true => simp [← both, own, first]
      | false =>
        obtain ⟨content, stops⟩ := ih (by simpa [own] using ends)
        rw [List.takeWhile_cons_of_pos (by simp [own]), List.find?_cons_of_neg (by simp [own]),
          List.takeWhile_cons_of_pos (by simp [← both, own]),
          List.find?_cons_of_neg (by simp [← both, own])]
        exact ⟨.cons first content, stops⟩
  obtain ⟨content, stop, stop', found, found', stops⟩ := places
  refine ⟨content, ?_, rfl⟩
  simpa [endingAt, stopOf, found, found'] using stops

theorem Formula.alike_ofCursor {ts us : List Token} (same : ∀ t u, R t u → t.word = u.word)
    (h : List.Forall₂ R ts us) (ends : ∃ t ∈ ts, t.isEnd = true) (m n : Nat) :
    Alike R Eq (ofCursor (.endingAt m ts)) (ofCursor (.endingAt n us)) := by
  rw [ofCursor_eq_read, ofCursor_eq_read]
  exact (Parser.alike_read same (Cursor.corresponds_endingAt same h ends m n)).bind fun _ _ _ whole =>
    whole.ofReading

end NaturalDeduction
