import NaturalDeduction.Formula.Parser

/-!
What the productions read. `Parser.read` is a production apart from the bound on the tokens that it leaves,
and `Parser.resume` is what a production does after an operand of the next level. The equations here say of
every level what it does with the token ahead, and later proofs use nothing else of the parser.
-/

set_option autoImplicit false
set_option relaxedAutoImplicit false

namespace NaturalDeduction

theorem Except.ok_bind {ε α β : Type} (a : α) (f : α → Except ε β) :
    (Except.ok a : Except ε α).bind f = f a := rfl

theorem Except.exists_of_bind_eq_ok {ε α β : Type} {x : Except ε α} {f : α → Except ε β} {b : β}
    (h : x.bind f = .ok b) : ∃ a, x = .ok a ∧ f a = .ok b := by
  cases x with
  | error e => cases h
  | ok a => exact ⟨a, rfl, h⟩

theorem Except.cases_of_bind_eq_error {ε α β : Type} {x : Except ε α} {f : α → Except ε β} {e : ε}
    (h : x.bind f = .error e) : x = .error e ∨ ∃ a, x = .ok a ∧ f a = .error e := by
  cases x with
  | error e' => exact .inl (congrArg Except.error (Except.error.inj h))
  | ok a => exact .inr ⟨a, rfl, h⟩

theorem Except.exists_of_map_eq_ok {ε α β : Type} {x : Except ε α} {f : α → β} {b : β}
    (h : x.map f = .ok b) : ∃ a, x = .ok a ∧ f a = b := by
  cases x with
  | error e => cases h
  | ok a => exact ⟨a, rfl, Except.ok.inj h⟩

namespace Level

theorem left_of_ne {op : Connective} (h : op ≠ .implies) : left op = binary op := by
  cases op with
  | implies => exact absurd rfl h
  | and | or | iff => rfl

theorem right_of_ne {op : Connective} (h : op ≠ .implies) : right op = (binary op).tighter := by
  cases op with
  | implies => exact absurd rfl h
  | and | or | iff => rfl

theorem rank_le (l : Level) : l.rank ≤ 6 := by
  cases l with
  | binary op => cases op <;> decide
  | negation => decide
  | atom => decide

theorem not_rank_lt_loosest (l : Level) : ¬l.rank < loosest.rank := by
  rcases l with (_ | _ | _ | _) | _ | _ <;> decide

theorem rank_injective {l k : Level} (h : l.rank = k.rank) : l = k := by
  rcases l with (_ | _ | _ | _) | _ | _ <;> rcases k with (_ | _ | _ | _) | _ | _ <;>
    simp [rank] at h ⊢

theorem rank_tighter {l : Level} (h : l ≠ atom) : l.tighter.rank = l.rank + 1 := by
  cases l with
  | binary op => cases op <;> rfl
  | negation => rfl
  | atom => exact absurd rfl h

end Level

namespace Reading

def held (limit : Nat) (r : Reading) : Except ParseError Reading :=
  if r.height ≤ limit then .ok r else .error r.next.tooDeep

def close (opening : Token) (r : Reading) : Except ParseError Reading :=
  match r.next.ahead with
  | [] => .error (.unclosedParen opening.offset r.next.stop)
  | u :: tail =>
    if u.kind = .rightParen then .ok { r with next := Cursor.leave { r.next with ahead := tail } }
    else .error (.unclosedParen opening.offset u)

private theorem capped_map {bound limit : Nat} (r : Reading)
    (below : r.next.ahead.length < bound) :
    (r.capped limit below).map Subtype.val = r.held limit := by
  unfold capped held
  split <;> rfl

theorem held_of_le {limit : Nat} {r : Reading} (h : r.height ≤ limit) : r.held limit = .ok r :=
  if_pos h

theorem held_of_lt {limit : Nat} {r : Reading} (h : limit < r.height) :
    r.held limit = .error r.next.tooDeep :=
  if_neg (Nat.not_le.2 h)

theorem held_eq_ok {limit : Nat} {r s : Reading} (h : r.held limit = .ok s) :
    r.height ≤ limit ∧ r = s := by
  unfold held at h
  split at h
  · rename_i high
    exact ⟨high, Except.ok.inj h⟩
  · cases h

end Reading

namespace Parser

/-- What a production reads, apart from the bound on the tokens that it leaves. -/
def read (limit : Nat) (l : Level) (c : Cursor) : Except ParseError Reading :=
  (production limit l c).map Subtype.val

/-- What the production of a connective does after its first operand. -/
def resume (limit : Nat) : Connective → Reading → Except ParseError Reading
  | .implies, r =>
    match r.next.ahead with
    | [] => .ok r
    | t :: rest =>
      if t.kind = .connective .implies then
        if r.next.nesting < limit then
          (read limit (.binary .implies) (Cursor.enter { r.next with ahead := rest })).bind
            fun right => (Reading.join .implies r.formula r.height right.leave).held limit
        else .error (Cursor.tooDeep { r.next with ahead := rest })
      else .ok r
  | op, r => (chain limit op r).map Subtype.val

variable {limit : Nat}

theorem read_nil_atom (stop : Token) (n : Nat) :
    read limit .atom ⟨[], stop, n⟩ = .error .unexpectedEnd := by
  rw [read, production]
  rfl

theorem read_name {t : Token} (kind : t.kind = .name) (rest : List Token) (stop : Token) (n : Nat) :
    read limit .atom ⟨t :: rest, stop, n⟩ = .ok (.leaf (.var t.text) ⟨rest, stop, n⟩) := by
  rw [read, production]
  simp only [kind]
  rfl

theorem read_const {t : Token} {b : Bool} (kind : t.kind = .const b) (rest : List Token)
    (stop : Token) (n : Nat) :
    read limit .atom ⟨t :: rest, stop, n⟩ = .ok (.leaf (.const b) ⟨rest, stop, n⟩) := by
  rw [read, production]
  simp only [kind]
  rfl

theorem read_leftParen {t : Token} (kind : t.kind = .leftParen) (rest : List Token) (stop : Token)
    (n : Nat) :
    read limit .atom ⟨t :: rest, stop, n⟩ =
      if n < limit then (read limit .loosest ⟨rest, stop, n + 1⟩).bind (Reading.close t)
      else .error (Cursor.tooDeep ⟨rest, stop, n⟩) := by
  rw [read, production]
  simp only [kind]
  split
  · simp only [Cursor.enter, read]
    cases production limit .loosest ⟨rest, stop, n + 1⟩ with
    | error e => rfl
    | ok inner =>
      obtain ⟨⟨f, h, ⟨ahead, end', m⟩⟩, below⟩ := inner
      cases ahead with
      | nil => rfl
      | cons u tail =>
        by_cases closes : u.kind = .rightParen <;>
          simp [closes, Except.map, Except.bind, bind, Reading.close]
  · rfl

theorem read_atom_of_unexpected {t : Token} (name : t.kind ≠ .name)
    (const : ∀ b, t.kind ≠ .const b) (paren : t.kind ≠ .leftParen) (rest : List Token)
    (stop : Token) (n : Nat) :
    read limit .atom ⟨t :: rest, stop, n⟩ = .error (.unexpectedToken t) := by
  rw [read, production]
  cases kind : t.kind with
  | name => exact absurd kind name
  | const b => exact absurd kind (const b)
  | leftParen => exact absurd kind paren
  | rightParen => rfl
  | connective op => rfl
  | not => rfl
  | endOfInput => rfl

theorem read_not {t : Token} (kind : t.kind = .not) (rest : List Token) (stop : Token) (n : Nat) :
    read limit .negation ⟨t :: rest, stop, n⟩ =
      if n < limit then
        (read limit .negation ⟨rest, stop, n + 1⟩).bind fun r => r.leave.negate.held limit
      else .error (Cursor.tooDeep ⟨rest, stop, n⟩) := by
  rw [read, production]
  simp only [kind, if_true]
  split
  · simp only [Cursor.enter, read]
    cases production limit .negation ⟨rest, stop, n + 1⟩ with
    | error e => rfl
    | ok inner => exact Reading.capped_map _ _
  · rfl

theorem read_negation_eq_atom {c : Cursor} (h : ∀ t ∈ c.ahead.head?, t.kind ≠ .not) :
    read limit .negation c = read limit .atom c := by
  obtain ⟨ahead, stop, n⟩ := c
  cases ahead with
  | nil =>
    rw [read_nil_atom, read, production]
    rfl
  | cons t rest =>
    have other : t.kind ≠ .not := h t rfl
    rw [read, production]
    simp only [other, if_false, read]

private theorem read_implies (c : Cursor) :
    read limit (.binary .implies) c =
      (read limit (Level.binary .implies).tighter c).bind (resume limit .implies) := by
  rw [read, production, read]
  cases production limit (Level.binary .implies).tighter c with
  | error e => rfl
  | ok left =>
    obtain ⟨⟨f, h, ⟨ahead, stop, n⟩⟩, below⟩ := left
    cases ahead with
    | nil => rfl
    | cons t rest =>
      by_cases kind : t.kind = .connective .implies
      · by_cases room : n < limit
        · simp only [Except.map, Except.bind, bind, resume, kind, room, if_true, read, Cursor.enter]
          cases production limit (.binary .implies) ⟨rest, stop, n + 1⟩ with
          | error e => rfl
          | ok right => exact Reading.capped_map _ _
        · simp [Except.map, Except.bind, bind, resume, kind, room]
      · simp [Except.map, Except.bind, bind, resume, kind]

private theorem resume_eq_chain {op : Connective} (h : op ≠ .implies) (r : Reading) :
    resume limit op r = (chain limit op r).map Subtype.val := by
  cases op with
  | implies => exact absurd rfl h
  | and | or | iff => rfl

private theorem read_chain {op : Connective} (grouping : op ≠ .implies) (c : Cursor) :
    read limit (.binary op) c = (read limit (Level.binary op).tighter c).bind (resume limit op) := by
  rw [read, production, read]
  · cases production limit (Level.binary op).tighter c with
    | error e => rfl
    | ok left =>
      simp only [Except.map, Except.bind, bind, resume_eq_chain grouping]
      cases chain limit op left.val <;> rfl
  · exact grouping

theorem read_binary (op : Connective) (c : Cursor) :
    read limit (.binary op) c = (read limit (Level.binary op).tighter c).bind (resume limit op) := by
  by_cases grouping : op = .implies
  · rw [grouping]
    exact read_implies c
  · exact read_chain grouping c

theorem resume_of_ne {op : Connective} {r : Reading}
    (h : ∀ t ∈ r.next.ahead.head?, t.kind ≠ .connective op) : resume limit op r = .ok r := by
  obtain ⟨f, height, ⟨ahead, stop, n⟩⟩ := r
  cases ahead with
  | nil =>
    cases op with
    | implies => rfl
    | and | or | iff => simp [resume, chain, Except.map]
  | cons t rest =>
    have other : t.kind ≠ .connective op := h t rfl
    cases op with
    | implies => simp [resume, other]
    | and | or | iff => simp [resume, chain, other, Except.map]

theorem resume_implies {t : Token} (kind : t.kind = .connective .implies) (f : Formula)
    (height : Nat) (rest : List Token) (stop : Token) (n : Nat) :
    resume limit .implies ⟨f, height, ⟨t :: rest, stop, n⟩⟩ =
      if n < limit then
        (read limit (.binary .implies) ⟨rest, stop, n + 1⟩).bind
          fun right => (Reading.join .implies f height right.leave).held limit
      else .error (Cursor.tooDeep ⟨rest, stop, n⟩) := by
  simp [resume, kind, Cursor.enter]

theorem resume_chain {op : Connective} (grouping : op ≠ .implies) {t : Token}
    (kind : t.kind = .connective op) (f : Formula) (height : Nat) (rest : List Token) (stop : Token)
    (n : Nat) :
    resume limit op ⟨f, height, ⟨t :: rest, stop, n⟩⟩ =
      ((read limit (Level.binary op).tighter ⟨rest, stop, n⟩).bind
        fun right => (Reading.join op f height right).held limit).bind (resume limit op) := by
  rw [resume_eq_chain grouping, chain]
  simp only [kind, if_true, read]
  cases production limit (Level.binary op).tighter ⟨rest, stop, n⟩ with
  | error e => rfl
  | ok right =>
    by_cases high : (Reading.join op f height right.val).height ≤ limit
    · simp only [Except.map, Except.bind, bind, Reading.capped, Reading.held, high, if_true,
        resume_eq_chain grouping]
      cases chain limit op (Reading.join op f height right.val) <;> rfl
    · simp only [Except.map, Except.bind, bind, Reading.capped, Reading.held, high, if_false]

end Parser

end NaturalDeduction
