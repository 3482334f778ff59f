import NaturalDeduction.Formula.Grammar
import NaturalDeduction.Proofs.Formula.Reading

set_option autoImplicit false
set_option relaxedAutoImplicit false

namespace NaturalDeduction

/-- What comes next is no connective of some rank or above. -/
def StopsBelow (rank : Nat) (ts : List Token) : Prop :=
  ∀ t ∈ ts.head?, ∀ op, t.kind = .connective op → (Level.binary op).rank < rank

namespace StopsBelow

theorem nil (rank : Nat) : StopsBelow rank [] := by
  intro t member
  cases member

private theorem of_not_connective {t : Token} (h : ∀ op, t.kind ≠ .connective op) (rank : Nat)
    (ts : List Token) : StopsBelow rank (t :: ts) := by
  intro u member op kind
  cases member
  exact absurd kind (h op)

private theorem of_connective {t : Token} {op : Connective} (kind : t.kind = .connective op) {rank : Nat}
    (below : (Level.binary op).rank < rank) (ts : List Token) : StopsBelow rank (t :: ts) := by
  intro u member op' kind'
  cases member
  rw [kind] at kind'
  cases kind'
  exact below

private theorem mono {m n : Nat} {ts : List Token} (h : StopsBelow m ts) (le : m ≤ n) :
    StopsBelow n ts := by
  intro t member op kind
  exact Nat.lt_of_lt_of_le (h t member op kind) le

end StopsBelow

namespace Level

/-- The rank from which on a connective goes on from an operand of a level. -/
def grip : Level → Nat
  | binary op => (right op).rank
  | negation => negation.rank
  | atom => atom.rank

private theorem rank_le_grip (l : Level) : l.rank ≤ l.grip := by
  cases l with
  | binary op => cases op <;> decide
  | negation => exact Nat.le_refl _
  | atom => exact Nat.le_refl _

private theorem grip_le_rank_tighter (l : Level) : l.grip ≤ l.tighter.rank := by
  cases l with
  | binary op => cases op <;> decide
  | negation => decide
  | atom => decide

private theorem rank_lt_grip_left (op : Connective) : (binary op).rank < (left op).grip := by
  cases op <;> decide

end Level

namespace Spells

theorem ne_nil {l : Level} {ts : List Token} {n : Nat} {f : Formula} (h : Spells l ts n f) :
    ts ≠ [] := by
  induction h with
  | var _ | const _ | paren _ _ _ | not _ _ | implies _ _ _ | chain _ _ _ _ => simp
  | tighter _ _ ih => exact ih

private theorem head_ne_not {ts : List Token} {n : Nat} {f : Formula} (h : Spells .atom ts n f) :
    ∀ t ∈ ts.head?, t.kind ≠ .not := by
  intro t first negation
  cases h with
  | var kind =>
    cases first
    rw [kind] at negation
    cases negation
  | const kind =>
    cases first
    rw [kind] at negation
    cases negation
  | paren left _ _ =>
    cases first
    rw [left] at negation
    cases negation
  | tighter below _ => exact below rfl

private theorem head_append_ne_not {l : Level} {ts : List Token} {n : Nat} {f : Formula}
    (h : Spells l.tighter ts n f) (rest : List Token) :
    l = .negation → ∀ t ∈ (ts ++ rest).head?, t.kind ≠ .not := by
  intro negation t first
  subst negation
  have first : t ∈ ts.head? := by simpa [List.head?_append, h.ne_nil] using first
  exact h.head_ne_not t first

end Spells

namespace Parser

variable {limit : Nat}

def resumeAt (limit : Nat) : Level → Reading → Except ParseError Reading
  | .binary op, r => resume limit op r
  | .negation, r => .ok r
  | .atom, r => .ok r

private theorem resumeAt_of_stops {l : Level} {r : Reading} (h : StopsBelow l.rank r.next.ahead) :
    resumeAt limit l r = .ok r := by
  cases l with
  | binary op => exact resume_of_ne fun t member kind => Nat.lt_irrefl _ (h t member op kind)
  | negation => rfl
  | atom => rfl

private theorem read_tighter {l : Level} {c : Cursor} (below : l ≠ .atom)
    (positive : l = .negation → ∀ t ∈ c.ahead.head?, t.kind ≠ .not) :
    read limit l c = (read limit l.tighter c).bind (resumeAt limit l) := by
  cases l with
  | binary op => exact read_binary op c
  | negation =>
    rw [read_negation_eq_atom (positive rfl)]
    show read limit .atom c = (read limit .atom c).bind Except.ok
    cases read limit .atom c <;> rfl
  | atom => exact absurd rfl below

/-- A production reads what the grammar derives, and then goes on as it does after an operand. -/
private theorem read_of_spells {l : Level} {ts : List Token} {n : Nat} {f : Formula} (h : Spells l ts n f)
    {rest : List Token} (stops : StopsBelow l.grip rest) (stop : Token) {k : Nat}
    (nests : k + n ≤ limit) (high : f.height ≤ limit) :
    read limit l ⟨ts ++ rest, stop, k⟩ =
      resumeAt limit l ⟨f, f.height, ⟨rest, stop, k⟩⟩ := by
  induction h generalizing rest k with
  | var kind => exact read_name kind rest stop k
  | const kind => exact read_const kind rest stop k
  | @paren opening closing ts n f left _ right ih =>
    have room : k < limit := by omega
    have closes : StopsBelow Level.loosest.grip (closing :: rest) :=
      .of_not_connective (by simp [right]) _ _
    have inner := ih closes (k := k + 1) (by omega) high
    have ends : resumeAt limit .loosest ⟨f, f.height, ⟨closing :: rest, stop, k + 1⟩⟩ = .ok _ :=
      resumeAt_of_stops (.of_not_connective (by simp [right]) _ _)
    simp only [List.cons_append, List.append_assoc, List.nil_append] at inner ⊢
    rw [read_leftParen left, if_pos room, inner, ends]
    simp [Except.bind, Reading.close, right, Cursor.leave, resumeAt]
  | @not t ts n f kind _ ih =>
    have room : k < limit := by omega
    have lower : f.height + 1 ≤ limit := high
    have inner := ih stops (k := k + 1) (by omega) (by omega)
    rw [List.cons_append, read_not kind, if_pos room, inner]
    exact Reading.held_of_le lower
  | @implies t ts us m n f g _ kind _ ihf ihg =>
    have heights : max f.height g.height + 1 ≤ limit := high
    have room : k < limit := by omega
    have left := ihf (k := k)
      (.of_connective kind (Level.rank_lt_grip_left _) (us ++ rest)) (by omega) (by omega)
    have right := ihg stops (k := k + 1) (by omega) (by omega)
    have first : resumeAt limit (Level.left .implies)
        ⟨f, f.height, ⟨t :: (us ++ rest), stop, k⟩⟩ = .ok _ :=
      resumeAt_of_stops (.of_connective kind (by decide) _)
    have last : resumeAt limit (Level.right .implies) ⟨g, g.height, ⟨rest, stop, k + 1⟩⟩ = .ok _ :=
      resumeAt_of_stops stops
    have ends : resumeAt limit (.binary .implies)
        ⟨.binary .implies f g, max f.height g.height + 1, ⟨rest, stop, k⟩⟩ = .ok _ :=
      resumeAt_of_stops stops
    have whole : resume limit .implies ⟨f, f.height, ⟨t :: (us ++ rest), stop, k⟩⟩ =
        .ok ⟨.binary .implies f g, max f.height g.height + 1, ⟨rest, stop, k⟩⟩ := by
      rw [resume_implies kind, if_pos room]
      exact (congrArg (Except.bind · _) (right.trans last)).trans (Reading.held_of_le heights)
    rw [List.append_assoc, List.cons_append, read_binary]
    exact (congrArg (Except.bind · _) (left.trans first)).trans (whole.trans ends.symm)
  | @chain op t ts us m n f g grouping _ kind _ ihf ihg =>
    have heights : max f.height g.height + 1 ≤ limit := high
    have left := ihf (k := k)
      (.of_connective kind (Level.rank_lt_grip_left _) (us ++ rest)) (by omega) (by omega)
    have right := ihg (k := k) (stops.mono (Level.rank_le_grip _)) (by omega)
      (by omega)
    have last : resumeAt limit (Level.right op) ⟨g, g.height, ⟨rest, stop, k⟩⟩ = .ok _ :=
      resumeAt_of_stops stops
    rw [Level.left_of_ne grouping] at left
    have joined : (Reading.join op f f.height ⟨g, g.height, ⟨rest, stop, k⟩⟩).held limit = .ok _ :=
      Reading.held_of_le heights
    rw [List.append_assoc, List.cons_append, left]
    show resume limit op _ = resume limit op _
    rw [resume_chain grouping kind, ← Level.right_of_ne grouping, right, last, Except.ok_bind, joined,
      Except.ok_bind]
    rfl
  | @tighter l ts n f below whole ih =>
    have lower := stops.mono (Level.grip_le_rank_tighter l)
    have first := ih (lower.mono (Level.rank_le_grip _)) nests high
    have ends : resumeAt limit l.tighter ⟨f, f.height, ⟨rest, stop, k⟩⟩ = .ok _ :=
      resumeAt_of_stops lower
    rw [read_tighter below (whole.head_append_ne_not rest), first, ends]
    rfl

/-- Where the next connective does not go on, a production reads just what the grammar derives. -/
theorem read_of_spells_of_stops {l : Level} {ts : List Token} {n : Nat} {f : Formula}
    (h : Spells l ts n f) {rest : List Token} (stops : StopsBelow l.rank rest) (stop : Token)
    {k : Nat} (nests : k + n ≤ limit) (high : f.height ≤ limit) :
    read limit l ⟨ts ++ rest, stop, k⟩ = .ok ⟨f, f.height, ⟨rest, stop, k⟩⟩ :=
  (read_of_spells h (stops.mono (Level.rank_le_grip l)) stop nests high).trans
    (resumeAt_of_stops stops)

def IsTooDeep {α : Type} (x : Except ParseError α) : Prop :=
  ∃ offset, x = .error (.tooDeep offset)

private theorem IsTooDeep.bind {α β : Type} {x : Except ParseError α} (h : IsTooDeep x)
    (f : α → Except ParseError β) : IsTooDeep (x.bind f) := by
  obtain ⟨offset, rfl⟩ := h
  exact ⟨offset, rfl⟩

private theorem isTooDeep_held {r : Reading} (h : limit < r.height) : IsTooDeep (r.held limit) :=
  ⟨_, Reading.held_of_lt h⟩

/-- What the grammar derives beyond the limit is too deep for the parser, whatever comes next. -/
private theorem isTooDeep_of_spells {l : Level} {ts : List Token} {n : Nat} {f : Formula}
    (h : Spells l ts n f) {rest : List Token} (stops : StopsBelow l.grip rest) (stop : Token)
    {k : Nat} (within : k ≤ limit) (deep : ¬(k + n ≤ limit ∧ f.height ≤ limit)) :
    IsTooDeep (read limit l ⟨ts ++ rest, stop, k⟩) := by
  induction h generalizing rest k with
  | var _ => exact absurd ⟨within, Nat.zero_le _⟩ deep
  | const _ => exact absurd ⟨within, Nat.zero_le _⟩ deep
  | @paren opening closing ts n f left _ right ih =>
    simp only [List.cons_append, List.append_assoc, List.nil_append]
    rw [read_leftParen left]
    by_cases room : k < limit
    · rw [if_pos room]
      have closes : StopsBelow Level.loosest.grip (closing :: rest) :=
        .of_not_connective (by simp [right]) _ _
      exact (ih closes (k := k + 1) room (by omega)).bind _
    · rw [if_neg room]
      exact ⟨_, rfl⟩
  | @not t ts n f kind operand ih =>
    rw [List.cons_append, read_not kind]
    by_cases room : k < limit
    · rw [if_pos room]
      by_cases fits : k + 1 + n ≤ limit ∧ f.height ≤ limit
      · rw [read_of_spells operand stops stop fits.1 fits.2]
        refine isTooDeep_held (Nat.lt_of_not_le fun high => deep ⟨by omega, high⟩)
      · exact (ih stops (k := k + 1) room fits).bind _
    · rw [if_neg room]
      exact ⟨_, rfl⟩
  | @implies t ts us m n f g left kind right ihf ihg =>
    have follows : StopsBelow (Level.left .implies).rank (t :: (us ++ rest)) :=
      .of_connective kind (by decide) _
    rw [List.append_assoc, List.cons_append, read_binary]
    by_cases fits : k + m ≤ limit ∧ f.height ≤ limit
    · have first := read_of_spells_of_stops left follows stop fits.1 fits.2
      refine (congrArg (fun x => IsTooDeep (Except.bind x _)) first).mpr ?_
      rw [Except.ok_bind, resume_implies kind]
      by_cases room : k < limit
      · rw [if_pos room]
        by_cases fits' : k + 1 + n ≤ limit ∧ g.height ≤ limit
        · have second := read_of_spells_of_stops right stops stop fits'.1 fits'.2
          refine (congrArg (fun x => IsTooDeep (Except.bind x _)) second).mpr ?_
          refine isTooDeep_held (Nat.lt_of_not_le fun high => deep ⟨by omega, high⟩)
        · exact (ihg stops (k := k + 1) room fits').bind _
      · rw [if_neg room]
        exact ⟨_, rfl⟩
    · exact (ihf (follows.mono (Level.rank_le_grip _)) within fits).bind _
  | @chain op t ts us m n f g grouping left kind right ihf ihg =>
    have follows : StopsBelow (Level.left op).grip (t :: (us ++ rest)) :=
      .of_connective kind (Level.rank_lt_grip_left op) _
    rw [List.append_assoc, List.cons_append]
    by_cases fits : k + m ≤ limit ∧ f.height ≤ limit
    · have first := read_of_spells left follows stop fits.1 fits.2
      rw [Level.left_of_ne grouping] at first
      rw [first]
      show IsTooDeep (resume limit op _)
      rw [resume_chain grouping kind, ← Level.right_of_ne grouping]
      by_cases fits' : k + n ≤ limit ∧ g.height ≤ limit
      · rw [read_of_spells_of_stops right stops stop fits'.1 fits'.2]
        refine IsTooDeep.bind (isTooDeep_held (Nat.lt_of_not_le fun high => deep ⟨?_, high⟩)) _
        omega
      · exact ((ihg (stops.mono (Level.rank_le_grip _)) within fits').bind _).bind _
    · have first := ihf follows within fits
      rw [Level.left_of_ne grouping] at first
      exact first
  | @tighter l ts n f below whole ih =>
    have lower := stops.mono (Level.grip_le_rank_tighter l)
    rw [read_tighter below (whole.head_append_ne_not rest)]
    exact (ih (lower.mono (Level.rank_le_grip _)) within deep).bind _

/-- What a reading that began at a cursor has taken: tokens that spell its formula within the limit. -/
structure Consumed (limit : Nat) (l : Level) (c : Cursor) (r : Reading) : Prop where
  spells : ∃ ts n, c.ahead = ts ++ r.next.ahead ∧ Spells l ts n r.formula ∧ c.nesting + n ≤ limit
  height_eq : r.height = r.formula.height
  height_le : r.height ≤ limit
  stop_eq : r.next.stop = c.stop
  nesting_eq : r.next.nesting = c.nesting

namespace Consumed

variable {c : Cursor} {r : Reading}

theorem length_lt {l : Level} (h : Consumed limit l c r) :
    r.next.ahead.length < c.ahead.length := by
  obtain ⟨ts, n, split, whole, _⟩ := h.spells
  have positive := List.length_pos_iff.2 whole.ne_nil
  rw [split, List.length_append]
  omega

private theorem loosen {l : Level} (below : l ≠ .atom) (h : Consumed limit l.tighter c r) :
    Consumed limit l c r := by
  obtain ⟨ts, n, split, whole, nests⟩ := h.spells
  exact { h with spells := ⟨ts, n, split, .tighter below whole, nests⟩ }

private theorem to_left {op : Connective} (h : Consumed limit (Level.binary op).tighter c r) :
    Consumed limit (.left op) c r := by
  by_cases grouping : op = .implies
  · subst grouping
    exact h
  · rw [Level.left_of_ne grouping]
    exact h.loosen (by simp)

private theorem of_left {op : Connective} (h : Consumed limit (.left op) c r) :
    Consumed limit (.binary op) c r := by
  by_cases grouping : op = .implies
  · subst grouping
    exact h.loosen (by simp)
  · rwa [Level.left_of_ne grouping] at h

private theorem leaf {t : Token} {rest : List Token} {stop : Token} {k : Nat} {f : Formula}
    (whole : Spells .atom [t] 0 f) (flat : f.height = 0) (within : k ≤ limit) :
    Consumed limit .atom ⟨t :: rest, stop, k⟩ (.leaf f ⟨rest, stop, k⟩) where
  spells := ⟨[t], 0, rfl, whole, within⟩
  height_eq := flat.symm
  height_le := Nat.zero_le limit
  stop_eq := rfl
  nesting_eq := rfl

private theorem close {t : Token} {rest : List Token} {stop : Token} {k : Nat} {inner : Reading}
    (left : t.kind = .leftParen) (inside : Consumed limit .loosest ⟨rest, stop, k + 1⟩ inner)
    (h : inner.close t = .ok r) : Consumed limit .atom ⟨t :: rest, stop, k⟩ r := by
  obtain ⟨f, height, ⟨ahead, stop', k'⟩⟩ := inner
  obtain ⟨⟨ts, n, split, whole, nests⟩, height_eq, height_le, stop_eq, nesting_eq⟩ := inside
  cases ahead with
  | nil => cases h
  | cons u tail =>
    by_cases right : u.kind = .rightParen
    · simp only [Reading.close, right, if_true, Except.ok.injEq] at h
      subst h
      simp only at split stop_eq nesting_eq
      have nests' : k + (n + 1) ≤ limit := by
        simp only at nests
        omega
      exact
        { spells := ⟨t :: ts ++ [u], n + 1, by simp [split, Cursor.leave], .paren left whole right,
            nests'⟩
          height_eq := height_eq
          height_le := height_le
          stop_eq := stop_eq
          nesting_eq := by simp [Cursor.leave, nesting_eq] }
    · simp [Reading.close, right] at h

private theorem negate {t : Token} {rest : List Token} {stop : Token} {k : Nat} {inner : Reading}
    (kind : t.kind = .not) (inside : Consumed limit .negation ⟨rest, stop, k + 1⟩ inner)
    (h : inner.leave.negate.held limit = .ok r) :
    Consumed limit .negation ⟨t :: rest, stop, k⟩ r := by
  obtain ⟨⟨ts, n, split, whole, nests⟩, height_eq, height_le, stop_eq, nesting_eq⟩ := inside
  obtain ⟨high, rfl⟩ := Reading.held_eq_ok h
  have nests' : k + (n + 1) ≤ limit := by
    simp only at nests
    omega
  exact
    { spells := ⟨t :: ts, n + 1, congrArg (t :: ·) split, .not kind whole, nests'⟩
      height_eq := congrArg (· + 1) height_eq
      height_le := high
      stop_eq := stop_eq
      nesting_eq := by simp [Reading.negate, Reading.leave, Cursor.leave, nesting_eq] }

private theorem join_implies {t : Token} {rest : List Token} {stop : Token} {k : Nat} {f : Formula}
    {height : Nat} {right : Reading} (kind : t.kind = .connective .implies)
    (before : Consumed limit (.left .implies) c ⟨f, height, ⟨t :: rest, stop, k⟩⟩)
    (after : Consumed limit (.right .implies) ⟨rest, stop, k + 1⟩ right)
    (h : (Reading.join .implies f height right.leave).held limit = .ok r) :
    Consumed limit (.binary .implies) c r := by
  obtain ⟨⟨ts, m, split, whole, nests⟩, height_eq, _, stop_eq, nesting_eq⟩ := before
  obtain ⟨⟨us, n, split', whole', nests'⟩, height_eq', _, stop_eq', nesting_eq'⟩ := after
  obtain ⟨high, rfl⟩ := Reading.held_eq_ok h
  simp only at split split' nests' height_eq stop_eq nesting_eq stop_eq' nesting_eq'
  exact
    { spells := ⟨ts ++ t :: us, max m (n + 1),
        by simp [split, split', Reading.join, Reading.leave, Cursor.leave],
        .implies whole kind whole', by omega⟩
      height_eq := by simp [Reading.join, Reading.leave, Formula.height, height_eq, height_eq']
      height_le := high
      stop_eq := stop_eq'.trans stop_eq
      nesting_eq := by simp [Reading.join, Reading.leave, Cursor.leave, nesting_eq', nesting_eq] }

private theorem join_chain {op : Connective} (grouping : op ≠ .implies) {t : Token} {rest : List Token}
    {stop : Token} {k : Nat} {f : Formula} {height : Nat} {right : Reading}
    (kind : t.kind = .connective op)
    (before : Consumed limit (.left op) c ⟨f, height, ⟨t :: rest, stop, k⟩⟩)
    (after : Consumed limit (.right op) ⟨rest, stop, k⟩ right)
    (h : (Reading.join op f height right).held limit = .ok r) :
    Consumed limit (.binary op) c r := by
  obtain ⟨⟨ts, m, split, whole, nests⟩, height_eq, _, stop_eq, nesting_eq⟩ := before
  obtain ⟨⟨us, n, split', whole', nests'⟩, height_eq', _, stop_eq', nesting_eq'⟩ := after
  obtain ⟨high, rfl⟩ := Reading.held_eq_ok h
  simp only at split split' nests' height_eq stop_eq nesting_eq stop_eq' nesting_eq'
  exact
    { spells := ⟨ts ++ t :: us, max m n, by simp [split, split', Reading.join],
        .chain grouping whole kind whole', by omega⟩
      height_eq := by simp [Reading.join, Formula.height, height_eq, height_eq']
      height_le := high
      stop_eq := stop_eq'.trans stop_eq
      nesting_eq := nesting_eq'.trans nesting_eq }

end Consumed

mutual

/-- A production that succeeds has read what the grammar derives. -/
theorem consumed_of_read {l : Level} {c : Cursor} {r : Reading} (within : c.nesting ≤ limit)
    (h : read limit l c = .ok r) : Consumed limit l c r := by
  match l, c with
  | .atom, ⟨[], stop, k⟩ =>
    rw [read_nil_atom] at h
    cases h
  | .atom, ⟨t :: rest, stop, k⟩ =>
    cases kind : t.kind with
    | name =>
      rw [read_name kind] at h
      cases h
      exact .leaf (.var kind) rfl within
    | const b =>
      rw [read_const kind] at h
      cases h
      exact .leaf (.const kind) rfl within
    | leftParen =>
      rw [read_leftParen kind] at h
      split at h
      · rename_i room
        obtain ⟨inner, first, second⟩ := Except.exists_of_bind_eq_ok h
        exact .close kind (consumed_of_read room first) second
      · cases h
    | rightParen | connective op | not | endOfInput =>
      rw [read_atom_of_unexpected (by simp [kind]) (by simp [kind]) (by simp [kind])] at h
      cases h
  | .negation, ⟨[], stop, k⟩ =>
    rw [read_negation_eq_atom (by simp), read_nil_atom] at h
    cases h
  | .negation, ⟨t :: rest, stop, k⟩ =>
    by_cases kind : t.kind = .not
    · rw [read_not kind] at h
      split at h
      · rename_i room
        obtain ⟨inner, first, second⟩ := Except.exists_of_bind_eq_ok h
        exact .negate kind (consumed_of_read room first) second
      · cases h
    · rw [read_negation_eq_atom (by simpa using kind)] at h
      exact .loosen (by simp) (consumed_of_read (l := .atom) within h)
  | .binary op, c =>
    rw [read_binary] at h
    obtain ⟨left, first, second⟩ := Except.exists_of_bind_eq_ok h
    have operand := consumed_of_read within first
    have shorter := operand.length_lt
    exact consumed_of_resume within operand.to_left second
termination_by 8 * c.ahead.length + l.slack
decreasing_by
  · exact Nat.lt_add_right _ (effort_lt (Nat.lt_succ_self _))
  · exact Nat.lt_add_right _ (effort_lt (Nat.lt_succ_self _))
  · exact Nat.add_lt_add_left (by decide) _
  · exact Nat.add_lt_add_left (Level.slack_tighter op) _
  · exact Nat.lt_add_right _ (Nat.mul_lt_mul_of_pos_left shorter (by decide))

theorem consumed_of_resume {op : Connective} {c : Cursor} {left r : Reading}
    (within : c.nesting ≤ limit) (before : Consumed limit (.left op) c left)
    (h : resume limit op left = .ok r) : Consumed limit (.binary op) c r := by
  match left with
  | ⟨f, height, ⟨[], stop, k⟩⟩ =>
    rw [resume_of_ne (by simp)] at h
    cases h
    exact before.of_left
  | ⟨f, height, ⟨t :: rest, stop, k⟩⟩ =>
    by_cases kind : t.kind = .connective op
    · have level : k = c.nesting := before.nesting_eq
      by_cases grouping : op = .implies
      · subst grouping
        rw [resume_implies kind] at h
        split at h
        · rename_i room
          obtain ⟨right, second, third⟩ := Except.exists_of_bind_eq_ok h
          exact .join_implies kind before (consumed_of_read room second) third
        · cases h
      · rw [resume_chain grouping kind, ← Level.right_of_ne grouping] at h
        obtain ⟨joined, second, third⟩ := Except.exists_of_bind_eq_ok h
        obtain ⟨right, first, held⟩ := Except.exists_of_bind_eq_ok second
        have after := consumed_of_read (by simpa [level] using within) first
        have shorter : joined.next.ahead.length < rest.length := by
          rw [← (Reading.held_eq_ok held).2]
          exact after.length_lt
        refine consumed_of_resume within ?_ third
        rw [Level.left_of_ne grouping]
        exact .join_chain grouping kind before after held
    · rw [resume_of_ne (by simpa using kind)] at h
      cases h
      exact before.of_left
termination_by 8 * left.next.ahead.length
decreasing_by
  · exact effort_lt (Nat.lt_succ_self _)
  · exact effort_lt (Nat.lt_succ_self _)
  · exact Nat.mul_lt_mul_of_pos_left (Nat.lt_succ_of_lt shorter) (by decide)

end

end Parser

namespace Spells

/-- A list of tokens spells one formula at most at a level, and its nesting is determined. The limit is set
where both formulas fit, and the place where only the less nested one would. -/
theorem unique {l : Level} {ts : List Token} {m n : Nat} {f g : Formula} (hf : Spells l ts m f)
    (hg : Spells l ts n g) : f = g ∧ m = n := by
  obtain ⟨limit, fits⟩ : ∃ limit, m ≤ limit ∧ n ≤ limit ∧ f.height ≤ limit ∧ g.height ≤ limit :=
    ⟨max (max m n) (max f.height g.height), by omega⟩
  have reads {k n : Nat} {f : Formula} (h : Spells l ts n f) (nests : k + n ≤ limit)
      (high : f.height ≤ limit) :
      Parser.read limit l ⟨ts ++ [], Token.endAt 0, k⟩ =
        .ok ⟨f, f.height, ⟨[], Token.endAt 0, k⟩⟩ :=
    Parser.read_of_spells_of_stops h (.nil _) _ nests high
  have deeper {m n : Nat} {f g : Formula} (hf : Spells l ts m f) (hg : Spells l ts n g)
      (bound : m ≤ limit) (high : f.height ≤ limit) : n ≤ m := by
    refine Nat.le_of_not_lt fun more => ?_
    obtain ⟨offset, deep⟩ := Parser.isTooDeep_of_spells hg (.nil _) (Token.endAt 0)
      (Nat.sub_le limit m) (by omega)
    rw [reads hf (by omega) high] at deep
    cases deep
  constructor
  · have first := reads (k := 0) hf (by omega) fits.2.2.1
    rw [reads (k := 0) hg (by omega) fits.2.2.2] at first
    cases first
    rfl
  · exact Nat.le_antisymm (deeper hg hf fits.2.1 fits.2.2.2) (deeper hf hg fits.1 fits.2.2.1)

end Spells

namespace Formula

def ofReading (r : Reading) : Except ParseError Formula :=
  match r.next.ahead with
  | [] => .ok r.formula
  | found :: _ => .error (.trailingInput found)

theorem ofCursor_eq_read (c : Cursor) :
    ofCursor c = (Parser.read depthLimit .loosest c).bind ofReading := by
  unfold ofCursor Parser.read
  cases Parser.production depthLimit .loosest c <;> rfl

private theorem read_endingAt {ts : List Token} {n : Nat} {f : Formula} (finish : Nat)
    (h : Spells .loosest (ts.takeWhile (!·.isEnd)) n f) (nests : n ≤ depthLimit)
    (high : f.height ≤ depthLimit) :
    Parser.read depthLimit .loosest (.endingAt finish ts) =
      .ok ⟨f, f.height, ⟨[], Cursor.stopOf finish ts, 0⟩⟩ := by
  have reads := Parser.read_of_spells_of_stops h (.nil _) (Cursor.stopOf finish ts) (k := 0) (by omega) high
  rwa [List.append_nil] at reads

/-- Reading a list of tokens succeeds just on what the grammar derives within the limit, wherever an end that is missing
is put. -/
theorem ofCursor_eq_ok_iff {finish : Nat} {ts : List Token} {f : Formula} :
    ofCursor (.endingAt finish ts) = .ok f ↔
      ∃ n, Spells .loosest (ts.takeWhile (!·.isEnd)) n f ∧ n ≤ depthLimit ∧
        f.height ≤ depthLimit := by
  rw [ofCursor_eq_read]
  constructor
  · intro h
    obtain ⟨⟨g, height, ⟨ahead, stop, k⟩⟩, reads, ends⟩ := Except.exists_of_bind_eq_ok h
    obtain ⟨⟨us, n, split, whole, nests⟩, height_eq, height_le, _, _⟩ :=
      Parser.consumed_of_read (Nat.zero_le _) reads
    cases ahead with
    | cons found rest => cases ends
    | nil =>
      cases ends
      simp only [List.append_nil] at split height_eq
      have content : ts.takeWhile (!·.isEnd) = us := split
      rw [content]
      exact ⟨n, whole, by simpa [Cursor.endingAt] using nests, height_eq ▸ height_le⟩
  · rintro ⟨n, whole, nests, high⟩
    rw [read_endingAt finish whole nests high]
    rfl

/-- What the grammar derives beyond the limit is too deep. -/
theorem isTooDeep_ofCursor {ts : List Token} {n : Nat} {f : Formula} (finish : Nat)
    (h : Spells .loosest (ts.takeWhile (!·.isEnd)) n f)
    (deep : ¬(n ≤ depthLimit ∧ f.height ≤ depthLimit)) :
    Parser.IsTooDeep (ofCursor (.endingAt finish ts)) := by
  have first := Parser.isTooDeep_of_spells h (.nil _) (Cursor.stopOf finish ts) (Nat.zero_le depthLimit)
    (by simpa using deep)
  rw [List.append_nil] at first
  rw [ofCursor_eq_read]
  exact first.bind _

theorem ofTokens_of_finishOf {ts : List Token} {finish : Nat} (h : Token.finishOf ts = .ok finish) :
    ofTokens ts = .ok (ofCursor (.endingAt finish ts)) := by
  rw [ofTokens, Cursor.ofTokens, h]
  rfl

theorem ofTokens_of_not_counted {ts : List Token} (beyond : ¬Token.Counted ts) :
    ofTokens ts = .error .offset := by
  rw [ofTokens, Cursor.ofTokens, Token.finishOf_of_not_counted beyond]
  rfl

/-- The parser accepts the grammar within the limit of 256: a list of tokens spells one formula at most, reading it gives
this formula just if nesting and height are within the limit, and else it is too deep. This is so for all lists of which
the bytes can be counted up to the end of the last token; the others are not read at all. -/
theorem ofTokens_accepts_grammar :
    (∀ us m n f g, Spells .loosest us m f → Spells .loosest us n g → f = g) ∧
      ∀ ts : List Token,
        (Token.Counted ts →
          (∀ f, ofTokens ts = .ok (.ok f) ↔
            ∃ n, Spells .loosest (ts.takeWhile (!·.isEnd)) n f ∧ n ≤ 256 ∧ f.depth - 1 ≤ 256) ∧
          ∀ n f, Spells .loosest (ts.takeWhile (!·.isEnd)) n f → 256 < n ∨ 256 < f.depth - 1 →
            ∃ offset, ofTokens ts = .ok (.error (.tooDeep offset))) ∧
        (¬Token.Counted ts → ofTokens ts = .error .offset) := by
  refine ⟨fun us m n f g hf hg => (hf.unique hg).1, fun ts => ⟨fun counted => ?_, ofTokens_of_not_counted⟩⟩
  obtain ⟨finish, ends⟩ := Token.exists_finishOf_iff.2 counted
  rw [ofTokens_of_finishOf ends]
  constructor
  · intro f
    rw [Except.ok.injEq]
    exact ofCursor_eq_ok_iff
  · intro n f whole beyond
    have height : f.depth - 1 = f.height := rfl
    have limit : depthLimit = 256 := rfl
    obtain ⟨offset, error⟩ := isTooDeep_ofCursor finish whole (by omega)
    exact ⟨offset, congrArg Except.ok error⟩

theorem ofTokens_accepts_negated_name :
    Token.Counted [⟨.not, "~", 0⟩, ⟨.name, "p", 1⟩] ∧
      ofTokens [⟨.not, "~", 0⟩, ⟨.name, "p", 1⟩] = .ok (.ok (.not (.var "p"))) := by
  have counted : Token.Counted [⟨.not, "~", 0⟩, ⟨.name, "p", 1⟩] := by decide
  have name : Spells .negation [⟨.name, "p", 1⟩] 0 (.var "p") := .tighter (by decide) (.var rfl)
  have negation : Spells .negation [⟨.not, "~", 0⟩, ⟨.name, "p", 1⟩] 1 (.not (.var "p")) :=
    .not rfl name
  have whole : Spells .loosest [⟨.not, "~", 0⟩, ⟨.name, "p", 1⟩] 1 (.not (.var "p")) :=
    .tighter (by decide) (.tighter (by decide) (.tighter (by decide) (.tighter (by decide) negation)))
  exact ⟨counted, (((ofTokens_accepts_grammar.2 _).1 counted).1 _).2 ⟨1, whole, by decide, by decide⟩⟩

/-- There is no offset after a name that begins at the last one. -/
example : ofTokens [⟨.name, "p", offsetLimit⟩] = .error .offset := rfl

end Formula

end NaturalDeduction
