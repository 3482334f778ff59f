import NaturalDeduction.Proofs.Formula.Place

set_option autoImplicit false
set_option relaxedAutoImplicit false

namespace NaturalDeduction

namespace StopsBelow

private theorem of_negation_le {rank : Nat} (h : Level.negation.rank ≤ rank) (ts : List Token) :
    StopsBelow rank ts := by
  intro t _ op _
  exact Nat.lt_of_lt_of_le (by cases op <;> decide) h

private theorem of_tighter {op : Connective} {ts : List Token}
    (h : StopsBelow (Level.binary op).tighter.rank ts)
    (other : ∀ t ∈ ts.head?, t.kind ≠ .connective op) : StopsBelow (Level.binary op).rank ts := by
  intro t member op' kind
  have below := h t member op' kind
  rw [Level.rank_tighter (by simp)] at below
  refine Nat.lt_of_le_of_ne (Nat.le_of_lt_succ below) fun same => other t member ?_
  rw [kind, Level.binary.inj (Level.rank_injective same)]

end StopsBelow

namespace Place

/-- A place refuses the end unless a formula may end there, and a token over which no move leads. -/
def Refuses (p : Place) : List Token → Prop
  | [] => p ≠ ⟨false, []⟩
  | t :: _ => p.step t = none

def fault (p : Place) (ahead : List Token) (stop : Token) : ParseError :=
  match p, ahead with
  | ⟨true, _⟩, [] => .unexpectedEnd
  | ⟨true, _⟩, found :: _ => .unexpectedToken found
  | ⟨false, []⟩, _ => .trailingInput (ahead.head?.getD stop)
  | ⟨false, opening :: _⟩, _ => .unclosedParen opening.offset (ahead.head?.getD stop)

section Fault

variable {p : Place} {ahead : List Token} {stop : Token}

private theorem fault_eq_trailingInput {found : Token} :
    p.fault ahead stop = .trailingInput found ↔
      p = ⟨false, []⟩ ∧ found = ahead.head?.getD stop := by
  obtain ⟨_ | _, _ | _⟩ := p <;> cases ahead <;> simp [fault, eq_comm]

private theorem fault_eq_unclosedParen {offset : Nat} {found : Token} :
    p.fault ahead stop = .unclosedParen offset found ↔
      (∃ opening, (∃ outer, p = ⟨false, opening :: outer⟩) ∧ offset = opening.offset) ∧
        found = ahead.head?.getD stop := by
  obtain ⟨_ | _, _ | _⟩ := p <;> cases ahead <;> simp [fault, eq_comm]

private theorem fault_eq_unexpectedToken {found : Token} :
    p.fault ahead stop = .unexpectedToken found ↔ p.due = true ∧ ahead.head? = some found := by
  obtain ⟨_ | _, _ | _⟩ := p <;> cases ahead <;> simp [fault]

private theorem fault_eq_unexpectedEnd : p.fault ahead stop = .unexpectedEnd ↔ p.due = true ∧ ahead = [] := by
  obtain ⟨_ | _, _ | _⟩ := p <;> cases ahead <;> simp [fault]

end Fault

/-- From a place some tokens ahead lead to one that refuses the rest and calls for an error. -/
def Faulty (p : Place) (ahead : List Token) (stop : Token) (e : ParseError) : Prop :=
  ∃ q us rest, ahead = us ++ rest ∧ p.walk us = some q ∧ q.Refuses rest ∧ e = q.fault rest stop

private theorem Faulty.here {p : Place} {ahead : List Token} {stop : Token} {e : ParseError}
    (h : p.Refuses ahead) (error : e = p.fault ahead stop) : p.Faulty ahead stop e :=
  ⟨p, [], ahead, rfl, rfl, h, error⟩

private theorem Faulty.after {p q : Place} {us ahead : List Token} {stop : Token} {e : ParseError}
    (h : q.Faulty ahead stop e) (walked : p.walk us = some q) : p.Faulty (us ++ ahead) stop e := by
  obtain ⟨r, vs, rest, rfl, further, refuses, error⟩ := h
  refine ⟨r, us ++ vs, rest, (List.append_assoc _ _ _).symm, ?_, refuses, error⟩
  rw [walk_append, walked, Option.bind_some, further]

private theorem Faulty.cons {p q : Place} {t : Token} {ahead : List Token} {stop : Token} {e : ParseError}
    (h : q.Faulty ahead stop e) (move : Move p t q) : p.Faulty (t :: ahead) stop e :=
  h.after (move.walk_cons_eq [])

private theorem step_eq_none {opened rest : List Token} {found : Token}
    (stops : StopsBelow Level.loosest.rank (found :: rest))
    (closed : opened = [] ∨ found.kind ≠ .rightParen) : step ⟨false, opened⟩ found = none := by
  cases kind : found.kind with
  | rightParen =>
    rcases closed with rfl | other
    · simp [step, kind]
    · exact absurd kind other
  | connective op => exact absurd (stops found rfl op kind) (Level.not_rank_lt_loosest _)
  | leftParen | not | name | const _ | endOfInput => simp [step, kind]

private theorem Faulty.of_close {opening : Token} {opened : List Token} {r : Reading} {e : ParseError}
    (stops : StopsBelow Level.loosest.rank r.next.ahead) (h : r.close opening = .error e) :
    Faulty ⟨false, opening :: opened⟩ r.next.ahead r.next.stop e := by
  obtain ⟨f, height, ⟨ahead, stop, k⟩⟩ := r
  cases ahead with
  | nil =>
    cases h
    exact .here (by simp [Refuses]) rfl
  | cons found rest =>
    by_cases right : found.kind = .rightParen
    · simp [Reading.close, right] at h
    · simp only [Reading.close, right, if_false, Except.error.injEq] at h
      exact .here (step_eq_none stops (.inr right)) h.symm

private theorem Faulty.of_ofReading {r : Reading} {e : ParseError}
    (stops : StopsBelow Level.loosest.rank r.next.ahead) (h : Formula.ofReading r = .error e) :
    Faulty ⟨false, []⟩ r.next.ahead r.next.stop e := by
  obtain ⟨f, height, ⟨ahead, stop, k⟩⟩ := r
  cases ahead with
  | nil => cases h
  | cons found rest =>
    cases h
    exact .here (step_eq_none stops (.inl rfl)) rfl

end Place

namespace Parser

variable {limit : Nat}

private theorem eq_tooDeep_of_held {r : Reading} {e : ParseError} (h : r.held limit = .error e) :
    e = r.next.tooDeep := by
  unfold Reading.held at h
  split at h
  · cases h
  · exact (Except.error.inj h).symm

private theorem Consumed.faulty {l : Level} {c : Cursor} {r : Reading} {opened : List Token} {e : ParseError}
    (operand : Consumed limit l c r)
    (h : Place.Faulty ⟨false, opened⟩ r.next.ahead r.next.stop e) :
    Place.Faulty ⟨true, opened⟩ c.ahead c.stop e := by
  obtain ⟨ts, n, split, spells, _⟩ := operand.spells
  rw [split, ← operand.stop_eq]
  exact h.after (Place.walk_of_spells spells opened)

mutual

private theorem stops_of_read {l : Level} {c : Cursor} {r : Reading} (within : c.nesting ≤ limit)
    (h : read limit l c = .ok r) : StopsBelow l.rank r.next.ahead := by
  match l with
  | .atom => exact .of_negation_le (by decide) _
  | .negation => exact .of_negation_le (Nat.le_refl _) _
  | .binary op =>
    rw [read_binary] at h
    obtain ⟨left, first, second⟩ := Except.exists_of_bind_eq_ok h
    have operand := consumed_of_read within first
    have shorter := operand.length_lt
    exact stops_of_resume (operand.nesting_eq ▸ within) (stops_of_read within first) second
termination_by 8 * c.ahead.length + l.slack
decreasing_by
  · exact Nat.add_lt_add_left (Level.slack_tighter op) _
  · exact Nat.lt_add_right _ (Nat.mul_lt_mul_of_pos_left shorter (by decide))

theorem stops_of_resume {op : Connective} {left r : Reading} (within : left.next.nesting ≤ limit)
    (stops : StopsBelow (Level.binary op).tighter.rank left.next.ahead)
    (h : resume limit op left = .ok r) : StopsBelow (Level.binary op).rank r.next.ahead := by
  match left with
  | ⟨f, height, ⟨[], stop, k⟩⟩ =>
    rw [resume_of_ne (by simp)] at h
    cases h
    exact .nil _
  | ⟨f, height, ⟨t :: rest, stop, k⟩⟩ =>
    by_cases kind : t.kind = .connective op
    · by_cases grouping : op = .implies
      · subst grouping
        rw [resume_implies kind] at h
        split at h
        · rename_i room
          obtain ⟨right, second, third⟩ := Except.exists_of_bind_eq_ok h
          obtain ⟨_, rfl⟩ := Reading.held_eq_ok third
          show StopsBelow (Level.binary .implies).rank right.next.ahead
          exact stops_of_read (c := ⟨rest, stop, k + 1⟩) room second
        · cases h
      · rw [resume_chain grouping kind] at h
        obtain ⟨joined, second, third⟩ := Except.exists_of_bind_eq_ok h
        obtain ⟨right, first, held⟩ := Except.exists_of_bind_eq_ok second
        obtain ⟨_, rfl⟩ := Reading.held_eq_ok held
        have level : Cursor.nesting ⟨rest, stop, k⟩ ≤ limit := within
        have operand := consumed_of_read level first
        have shorter := operand.length_lt
        have ends := stops_of_read level first
        refine stops_of_resume ?_ ?_ third
        · exact Nat.le_trans (Nat.le_of_eq operand.nesting_eq) level
        · exact ends
    · rw [resume_of_ne (by simpa using kind)] at h
      cases h
      exact stops.of_tighter (by simpa using kind)
termination_by 8 * left.next.ahead.length
decreasing_by
  · exact effort_lt (Nat.lt_succ_self _)
  · exact effort_lt (Nat.lt_succ_self _)
  · exact Nat.mul_lt_mul_of_pos_left (Nat.lt_succ_of_lt shorter) (by decide)

end

mutual

/-- A production that gives up, and not for going too deep, has come to a place that refuses what is ahead,
whichever parentheses are open around it. -/
private theorem faulty_of_read {l : Level} {c : Cursor} {e : ParseError} (within : c.nesting ≤ limit)
    (positive : l = .atom → ∀ t ∈ c.ahead.head?, t.kind ≠ .not)
    (shallow : ∀ offset, e ≠ .tooDeep offset) (h : read limit l c = .error e)
    (opened : List Token) : Place.Faulty ⟨true, opened⟩ c.ahead c.stop e := by
  match l, c with
  | .atom, ⟨[], stop, k⟩ =>
    rw [read_nil_atom] at h
    cases h
    exact .here (by simp [Place.Refuses]) rfl
  | .atom, ⟨t :: rest, stop, k⟩ =>
    cases kind : t.kind with
    | name =>
      rw [read_name kind] at h
      cases h
    | const b =>
      rw [read_const kind] at h
      cases h
    | leftParen =>
      rw [read_leftParen kind] at h
      split at h
      · rename_i room
        have level : Cursor.nesting ⟨rest, stop, k + 1⟩ ≤ limit := room
        -- From here on this parenthesis is the innermost open one, until what is inside has been read.
        refine Place.Faulty.cons ?_ (.leftParen kind)
        rcases Except.cases_of_bind_eq_error h with first | ⟨inner, first, second⟩
        · exact faulty_of_read level (by simp [Level.loosest]) shallow first (t :: opened)
        · exact (consumed_of_read level first).faulty (.of_close (stops_of_read level first) second)
      · cases h
        exact absurd rfl (shallow _)
    | rightParen | connective op | endOfInput =>
      rw [read_atom_of_unexpected (by simp [kind]) (by simp [kind]) (by simp [kind])] at h
      cases h
      exact .here (by simp [Place.Refuses, Place.step, kind]) rfl
    | not => exact absurd kind (positive rfl t rfl)
  | .negation, ⟨[], stop, k⟩ =>
    rw [read_negation_eq_atom (by simp)] at h
    exact faulty_of_read within (by simp) shallow h opened
  | .negation, ⟨t :: rest, stop, k⟩ =>
    by_cases kind : t.kind = .not
    · rw [read_not kind] at h
      split at h
      · rename_i room
        rcases Except.cases_of_bind_eq_error h with first | ⟨inner, _, second⟩
        · refine Place.Faulty.cons ?_ (.not kind)
          exact faulty_of_read (c := ⟨rest, stop, k + 1⟩) room (by simp) shallow first opened
        · exact absurd (eq_tooDeep_of_held second) (shallow _)
      · cases h
        exact absurd rfl (shallow _)
    · rw [read_negation_eq_atom (by simpa using kind)] at h
      exact faulty_of_read within (by simpa using kind) shallow h opened
  | .binary op, c =>
    rw [read_binary] at h
    rcases Except.cases_of_bind_eq_error h with first | ⟨left, first, second⟩
    · exact faulty_of_read within (by cases op <;> simp [Level.tighter]) shallow first opened
    · have operand := consumed_of_read within first
      have shorter := operand.length_lt
      exact operand.faulty (faulty_of_resume (operand.nesting_eq ▸ within) shallow second opened)
termination_by 8 * c.ahead.length + l.slack
decreasing_by
  · exact Nat.lt_add_right _ (effort_lt (Nat.lt_succ_self _))
  · exact Nat.add_lt_add_left (by decide) _
  · exact Nat.lt_add_right _ (effort_lt (Nat.lt_succ_self _))
  · exact Nat.add_lt_add_left (by decide) _
  · exact Nat.add_lt_add_left (Level.slack_tighter op) _
  · exact Nat.lt_add_right _ (Nat.mul_lt_mul_of_pos_left shorter (by decide))

theorem faulty_of_resume {op : Connective} {left : Reading} {e : ParseError}
    (within : left.next.nesting ≤ limit) (shallow : ∀ offset, e ≠ .tooDeep offset)
    (h : resume limit op left = .error e) (opened : List Token) :
    Place.Faulty ⟨false, opened⟩ left.next.ahead left.next.stop e := by
  match left with
  | ⟨f, height, ⟨[], stop, k⟩⟩ =>
    rw [resume_of_ne (by simp)] at h
    cases h
  | ⟨f, height, ⟨t :: rest, stop, k⟩⟩ =>
    by_cases kind : t.kind = .connective op
    · refine Place.Faulty.cons ?_ (.connective kind)
      by_cases grouping : op = .implies
      · subst grouping
        rw [resume_implies kind] at h
        split at h
        · rename_i room
          rcases Except.cases_of_bind_eq_error h with first | ⟨right, _, second⟩
          · exact faulty_of_read (c := ⟨rest, stop, k + 1⟩) room (by simp) shallow first opened
          · exact absurd (eq_tooDeep_of_held second) (shallow _)
        · cases h
          exact absurd rfl (shallow _)
      · have level : Cursor.nesting ⟨rest, stop, k⟩ ≤ limit := within
        rw [resume_chain grouping kind] at h
        rcases Except.cases_of_bind_eq_error h with joins | ⟨joined, second, third⟩
        · rcases Except.cases_of_bind_eq_error joins with first | ⟨right, _, second⟩
          · exact faulty_of_read level (by cases op <;> simp [Level.tighter]) shallow first opened
          · exact absurd (eq_tooDeep_of_held second) (shallow _)
        · obtain ⟨right, first, held⟩ := Except.exists_of_bind_eq_ok second
          obtain ⟨_, rfl⟩ := Reading.held_eq_ok held
          have operand := consumed_of_read level first
          have shorter := operand.length_lt
          refine operand.faulty (faulty_of_resume ?_ shallow third opened)
          exact Nat.le_trans (Nat.le_of_eq operand.nesting_eq) level
    · rw [resume_of_ne (by simpa using kind)] at h
      cases h
termination_by 8 * left.next.ahead.length
decreasing_by
  · exact effort_lt (Nat.lt_succ_self _)
  · exact effort_lt (Nat.lt_succ_self _)
  · exact Nat.mul_lt_mul_of_pos_left (Nat.lt_succ_of_lt shorter) (by decide)

end

end Parser

/-- What the error `e` says of the tokens `us`, which `stop` ends: it points at the place `i`. -/
structure PointsAt (us : List Token) (stop : Token) (e : ParseError) (i : Nat) : Prop where
  within : i ≤ us.length
  viable : Viable (us.take i)
  refused : i < us.length → ¬Viable (us.take (i + 1))
  incomplete : i = us.length → ¬IsFormula us
  /-- An operand is due at `i` just if one may come next. -/
  due : OperandDue (us.take i) ↔ ∃ ws, IsOperand ws ∧ Viable (us.take i ++ ws)
  /-- A whole formula ends before `i`. -/
  trailing (found : Token) :
    e = .trailingInput found ↔ IsFormula (us.take i) ∧ found = us.getD i stop
  /-- A formula that stands right after a parenthesis ends before `i`. -/
  unclosed (offset : Nat) (found : Token) : e = .unclosedParen offset found ↔
    (∃ opening, EndsInside opening (us.take i) ∧ offset = opening.offset) ∧ found = us.getD i stop
  innermost (offset : Nat) (found : Token) : e = .unclosedParen offset found →
    ∃ opening ∈ (openParens (us.take i)).head?, offset = opening.offset
  unexpected (found : Token) :
    e = .unexpectedToken found ↔ OperandDue (us.take i) ∧ us[i]? = some found
  ended : e = .unexpectedEnd ↔ OperandDue (us.take i) ∧ i = us.length

/-- An error that a place calls for points at this place. -/
private theorem pointsAt_of_faulty {us : List Token} {stop : Token} {e : ParseError}
    (h : Place.start.Faulty us stop e) : ∃ i, PointsAt us stop e i := by
  obtain ⟨q, before, rest, rfl, walked, refuses, rfl⟩ := h
  have whole : IsFormula before ↔ q = ⟨false, []⟩ := by
    rw [isFormula_iff_walk, walked, Option.some.injEq]
  have inside (opening : Token) : EndsInside opening before ↔ ∃ outer, q = ⟨false, opening :: outer⟩ :=
    endsInside_iff walked
  have due := operandDue_iff_due walked
  have viable : Viable before := viable_iff_walk.2 ⟨q, walked⟩
  have opened := openParens_of_walk walked
  have taken : (before ++ rest).take before.length = before := List.take_left
  have next : (before ++ rest)[before.length]? = rest.head? := by
    rw [List.getElem?_append_right (Nat.le_refl _), Nat.sub_self, List.head?_eq_getElem?]
  have found : (before ++ rest).getD before.length stop = rest.head?.getD stop := by
    rw [List.getD_eq_getElem?_getD, next]
  have last : before.length = (before ++ rest).length ↔ rest = [] := by simp
  refine ⟨before.length, ?_⟩
  constructor
  case within => simp
  case viable => rwa [taken]
  case refused =>
    intro more longer
    cases rest with
    | nil => simp at more
    | cons t rest =>
      obtain ⟨p, further⟩ := viable_iff_walk.1 longer
      rw [List.take_length_add_append] at further
      have step : q.step t = none := refuses
      simp [walked, step] at further
  case incomplete =>
    intro ended complete
    obtain rfl := last.1 ended
    exact refuses (whole.1 (by simpa using complete))
  case due =>
    rw [taken]
    exact operandDue_iff_viable_append viable
  case trailing =>
    intro token
    rw [taken, whole, found, Place.fault_eq_trailingInput]
  case unclosed =>
    intro offset token
    simp only [taken, inside, found, Place.fault_eq_unclosedParen]
  case innermost =>
    intro offset token error
    obtain ⟨⟨opening, ⟨outer, rfl⟩, place⟩, _⟩ := Place.fault_eq_unclosedParen.1 error
    exact ⟨opening, by simp [taken, opened], place⟩
  case unexpected =>
    intro token
    rw [taken, due, next, Place.fault_eq_unexpectedToken]
  case ended => rw [taken, due, last, Place.fault_eq_unexpectedEnd]

namespace Formula

private theorem stopOf_isEnd (finish : Nat) (ts : List Token) : (Cursor.stopOf finish ts).isEnd = true := by
  unfold Cursor.stopOf
  cases first : ts.find? Token.isEnd with
  | none => rfl
  | some t => exact List.find?_some first

private theorem faulty_of_ofCursor {c : Cursor} {e : ParseError} (level : c.nesting ≤ depthLimit)
    (h : ofCursor c = .error e) (shallow : ∀ offset, e ≠ .tooDeep offset) :
    Place.start.Faulty c.ahead c.stop e := by
  rw [ofCursor_eq_read] at h
  rcases Except.cases_of_bind_eq_error h with first | ⟨r, first, second⟩
  · exact Parser.faulty_of_read level (by simp [Level.loosest]) shallow first []
  · have stops := Parser.stops_of_read level first
    exact (Parser.consumed_of_read level first).faulty (.of_ofReading stops second)

private theorem ofCursor_eq_error {c : Cursor} {e : ParseError} (positive : ∀ t ∈ c.ahead.head?, t.kind ≠ .not)
    (h : Parser.read depthLimit .atom c = .error e) : ofCursor c = .error e := by
  have negation := (Parser.read_negation_eq_atom positive).trans h
  have binary (op : Connective) (h : Parser.read depthLimit (Level.binary op).tighter c = .error e) :
      Parser.read depthLimit (.binary op) c = .error e := by
    rw [Parser.read_binary, h]
    rfl
  have whole := binary .iff (binary .implies (binary .or (binary .and negation)))
  rw [ofCursor_eq_read]
  exact congrArg (Except.bind · ofReading) whole

/-- The error of a list of tokens that does not go too deep points at the first token with which no formula
goes on, or at the end of tokens that spell none. -/
theorem ofTokens_error_pointsAt {ts : List Token} {e : ParseError} (h : ofTokens ts = .ok (.error e))
    (shallow : ∀ offset, e ≠ .tooDeep offset) :
    ∃ finish, Token.finishOf ts = .ok finish ∧ (Cursor.stopOf finish ts).isEnd = true ∧
      ∃ i, PointsAt (ts.takeWhile (!·.isEnd)) (Cursor.stopOf finish ts) e i := by
  obtain ⟨c, counted, error⟩ := Except.exists_of_map_eq_ok h
  obtain ⟨finish, ends, rfl⟩ := Except.exists_of_map_eq_ok counted
  have faulty := faulty_of_ofCursor (Nat.zero_le _) error shallow
  exact ⟨finish, ends, stopOf_isEnd finish ts, pointsAt_of_faulty faulty⟩

theorem ofTokens_error_pointsAt_unclosed_name :
    ofTokens [⟨.leftParen, "(", 0⟩, ⟨.name, "p", 1⟩] = .ok (.error (.unclosedParen 0 (Token.endAt 2))) ∧
      ∃ i, PointsAt [⟨.leftParen, "(", 0⟩, ⟨.name, "p", 1⟩] (Token.endAt 2)
        (.unclosedParen 0 (Token.endAt 2)) i := by
  have name : Spells .loosest [⟨.name, "p", 1⟩] 0 (.var "p") :=
    (Spells.var rfl : Spells .atom _ 0 _).whole
  have inside := Parser.read_of_spells_of_stops name (.nil _) (Token.endAt 2) (k := 1)
    (by decide : 1 + 0 ≤ depthLimit) (Nat.zero_le _)
  have finish : Token.finishOf [⟨.leftParen, "(", 0⟩, ⟨.name, "p", 1⟩] = .ok 2 := rfl
  have error : ofTokens [⟨.leftParen, "(", 0⟩, ⟨.name, "p", 1⟩] =
      .ok (.error (.unclosedParen 0 (Token.endAt 2))) := by
    rw [ofTokens_of_finishOf finish]
    refine congrArg Except.ok (ofCursor_eq_error (by simp [Cursor.endingAt, Token.isEnd]) ?_)
    exact (Parser.read_leftParen rfl _ _ _).trans (congrArg (Except.bind · _) inside)
  obtain ⟨_, ends, _, points⟩ := ofTokens_error_pointsAt error (by simp)
  cases finish.symm.trans ends
  exact ⟨error, points⟩

end Formula

end NaturalDeduction
