import NaturalDeduction.Formula.ScanStep
import NaturalDeduction.Proofs.Formula.Scan

set_option autoImplicit false
set_option relaxedAutoImplicit false

namespace NaturalDeduction

namespace Position

variable {p q : Position} {limit n : Nat}

/-- No end stands before a position. -/
def BeforeEnd (p : Position) : Prop :=
  p.taken ≤ p.tokens.findIdx Token.isEnd

private theorem BeforeEnd.bump (h : p.BeforeEnd) (token : p.peek.kind ≠ .endOfInput) : p.bump.BeforeEnd := by
  have within := taken_lt_of_peek token
  have inside : p.taken < p.tokens.findIdx Token.isEnd := by
    refine Nat.lt_of_le_of_ne h fun first => token ?_
    have ends := @List.findIdx_getElem _ Token.isEnd p.tokens (first ▸ within)
    simp only [← first] at ends
    rw [peek, List.getElem?_eq_getElem within]
    exact eq_of_beq ends
  rw [BeforeEnd, Position.bump, if_pos within]
  exact inside

/-- What holds of a position that is seen during a scan from `p`, inside `n` constructs that nest. -/
structure Visits (p : Position) (limit n : Nat) (q : Position) : Prop where
  tokens_eq : q.tokens = p.tokens
  taken_le : p.taken ≤ q.taken
  beforeEnd : q.BeforeEnd
  nesting_eq : q.nesting = p.nesting + n
  nesting_le : q.nesting ≤ limit

namespace Visits

private theorem start (within : p.nesting ≤ limit) (before : p.BeforeEnd) : p.Visits limit 0 p where
  tokens_eq := rfl
  taken_le := Nat.le_refl _
  beforeEnd := before
  nesting_eq := rfl
  nesting_le := within

private theorem bump (h : p.Visits limit n q) (token : q.peek.kind ≠ .endOfInput) : p.Visits limit n q.bump := by
  have within := taken_lt_of_peek token
  have before := h.beforeEnd.bump token
  rw [Position.bump, if_pos within] at before ⊢
  exact { h with taken_le := Nat.le_succ_of_le h.taken_le, beforeEnd := before }

private theorem enter (h : p.Visits limit n q) (room : q.nesting < limit) : p.Visits limit (n + 1) q.enter :=
  { h with nesting_eq := congrArg (· + 1) h.nesting_eq, nesting_le := room }

private theorem leave (h : p.Visits limit (n + 1) q) : p.Visits limit n q.leave :=
  { h with
    nesting_eq := congrArg (· - 1) h.nesting_eq
    nesting_le := Nat.le_trans (Nat.sub_le _ _) h.nesting_le }

end Visits

end Position

namespace Scanning

variable {limit : Nat} {p q : Position} {s t : Scanning} {rest : List Pending} {construct : Pending}

def opened (rest : List Pending) : Nat :=
  rest.countP Pending.nests

private theorem opened_cons_of_nests (nests : construct.nests = true) :
    opened (construct :: rest) = opened rest + 1 :=
  List.countP_cons_of_pos nests

private theorem opened_cons_of_not_nests (flat : construct.nests = false) :
    opened (construct :: rest) = opened rest :=
  List.countP_cons_of_neg (by simp [flat])

/-- The nesting is that of the call and one more for each construct that nests. An error goes through these constructs
and leaves the nesting as it is. -/
def Balanced (p : Position) (limit : Nat) : Scanning → Prop
  | ⟨rest, .scan _ q⟩ => p.Visits limit (opened rest) q
  | ⟨rest, .give r⟩ => p.Visits limit (opened rest) r.next
  | ⟨_, .fail _ q⟩ => ∃ n, p.Visits limit n q

private theorem Balanced.exists_visits (h : s.Balanced p limit) : ∃ n, p.Visits limit n s.task.position := by
  match s with
  | ⟨rest, .scan _ _⟩ => exact ⟨_, h⟩
  | ⟨rest, .give _⟩ => exact ⟨_, h⟩
  | ⟨_, .fail _ _⟩ => exact h

private theorem Balanced.nesting_pos (h : s.Balanced p limit) (leaves : s.leaves = true) :
    0 < s.task.position.nesting := by
  match s with
  | ⟨construct :: rest, .give r⟩ =>
    have visits : p.Visits limit (opened (construct :: rest)) r.next := h
    have nesting := visits.nesting_eq
    rw [opened_cons_of_nests leaves] at nesting
    show 0 < r.next.nesting
    omega

private theorem balanced_enter (h : p.Visits limit (opened rest) q) (nests : construct.nests = true) (l : Level) :
    (enter limit rest construct l q).Balanced p limit := by
  unfold enter
  split
  · rename_i room
    show p.Visits limit (opened (construct :: rest)) q.enter
    rw [opened_cons_of_nests nests]
    exact h.enter room
  · exact ⟨_, h⟩

private theorem balanced_held {r : Scanned} (h : p.Visits limit (opened rest) r.next) :
    Balanced p limit ⟨rest, .held limit r⟩ := by
  unfold Task.held
  split
  · exact h
  · exact ⟨_, h⟩

private theorem balanced_begin (h : p.Visits limit (opened rest) q) (l : Level) :
    (begin limit rest l q).Balanced p limit := by
  cases l with
  | atom =>
    rw [begin]
    split
    · rename_i kind
      exact h.bump (by simp [kind])
    · rename_i b kind
      exact h.bump (by simp [kind])
    · rename_i kind
      exact balanced_enter (h.bump (by simp [kind])) rfl .loosest
    · exact ⟨_, h⟩
  | negation =>
    rw [begin]
    split
    · rename_i kind
      exact balanced_enter (h.bump (by simp [kind])) rfl .negation
    · exact h
  | binary op =>
    show p.Visits limit (opened (.operand op :: rest)) q
    rwa [opened_cons_of_not_nests rfl]

private theorem balanced_resume {r : Scanned} (h : p.Visits limit (opened rest) r.next) (construct : Pending) :
    (resume limit rest construct r).Balanced p limit := by
  cases construct with
  | paren opening =>
    rw [resume]
    split
    · rename_i closes
      exact h.bump (by simp [closes])
    · exact ⟨_, h⟩
  | negation => exact balanced_held h
  | operand op =>
    rw [resume]
    split
    · rename_i kind
      have after := h.bump (by simp [kind])
      split
      · rename_i implies
        exact balanced_enter after (by simp [Pending.nests, implies]) (.binary op)
      · rename_i grouping
        show p.Visits limit (opened (.join op r :: rest)) r.next.bump
        rwa [opened_cons_of_not_nests (by simp [Pending.nests, grouping])]
    · exact h
  | join op left =>
    rw [resume]
    split
    · exact balanced_held h
    · refine balanced_held ?_
      rwa [opened_cons_of_not_nests rfl]

/-- A step keeps the nesting balanced. -/
private theorem Balanced.step (h : s.Balanced p limit) (next : s.step limit = some t) : t.Balanced p limit := by
  match s with
  | ⟨rest, .scan l q⟩ =>
    cases next
    exact balanced_begin h l
  | ⟨construct :: rest, .give r⟩ =>
    cases next
    have visits : p.Visits limit (opened (construct :: rest)) r.next := h
    -- a formula inside a construct that nests was scanned one level deeper, which is taken back here
    by_cases nests : construct.nests = true
    · rw [if_pos nests]
      rw [opened_cons_of_nests nests] at visits
      exact balanced_resume visits.leave construct
    · rw [if_neg nests]
      rw [opened_cons_of_not_nests (by simpa using nests)] at visits
      exact balanced_resume visits construct
  | ⟨_ :: rest, .fail e q⟩ =>
    cases next
    exact h

private theorem Balanced.run {n : Nat} (h : s.Balanced p limit) (after : s.run limit n = some t) :
    t.Balanced p limit := by
  induction n generalizing s with
  | zero =>
    cases after
    exact h
  | succ n ih =>
    obtain ⟨u, next, later⟩ := Option.bind_eq_some_iff.1 after
    exact ih (h.step next) later

def Reaches (limit : Nat) (s t : Scanning) : Prop :=
  ∃ n, s.run limit n = some t

private theorem Reaches.refl (s : Scanning) : Reaches limit s s :=
  ⟨0, rfl⟩

private theorem Reaches.head {u : Scanning} (next : s.step limit = some t) (h : Reaches limit t u) :
    Reaches limit s u := by
  obtain ⟨n, later⟩ := h
  exact ⟨n + 1, by rw [run, next]; exact later⟩

private theorem run_add (m n : Nat) (s : Scanning) : s.run limit (m + n) = (s.run limit m).bind (run limit n) := by
  induction m generalizing s with
  | zero => rw [Nat.zero_add]; rfl
  | succ m ih =>
    rw [Nat.succ_add, run, run, Option.bind_assoc]
    exact congrArg _ (funext ih)

private theorem Reaches.trans {u : Scanning} (h : Reaches limit s t) (h' : Reaches limit t u) : Reaches limit s u := by
  obtain ⟨m, first⟩ := h
  obtain ⟨n, second⟩ := h'
  exact ⟨m + n, by rw [run_add, first]; exact second⟩

/-- The steps go on until an outcome is there for the constructs `rest` that wait for it. -/
def Comes (limit : Nat) (s : Scanning) (rest : List Pending) (outcome : Except ParseError Scanned) : Prop :=
  ∃ task : Task, Reaches limit s ⟨rest, task⟩ ∧ task.Returns outcome

namespace Comes

variable {outcome : Except ParseError Scanned} {r : Scanned}

private theorem head (next : s.step limit = some t) (h : Comes limit t rest outcome) :
    Comes limit s rest outcome := by
  obtain ⟨task, reaches, returns⟩ := h
  exact ⟨task, reaches.head next, returns⟩

private theorem give (rest : List Pending) (r : Scanned) : Comes limit ⟨rest, .give r⟩ rest (.ok r) :=
  ⟨_, .refl _, rfl⟩

private theorem fail (rest : List Pending) (e : ParseError) (q : Position) :
    Comes limit ⟨rest, .fail e q⟩ rest (.error e) :=
  ⟨_, .refl _, rfl⟩

private theorem held (rest : List Pending) (r : Scanned) :
    Comes limit ⟨rest, .held limit r⟩ rest (r.held limit) := by
  unfold Task.held Scanned.held
  split
  · exact give rest r
  · exact fail rest _ _

private theorem bind {f : Scanned → Except ParseError Scanned} (h : Comes limit s (construct :: rest) outcome)
    (next : ∀ r, outcome = .ok r → Comes limit ⟨construct :: rest, .give r⟩ rest (f r)) :
    Comes limit s rest (outcome.bind f) := by
  obtain ⟨task, reaches, returns⟩ := h
  cases task with
  | scan l q => cases returns
  | give r =>
    obtain ⟨task', reaches', returns'⟩ := next r returns
    refine ⟨task', reaches.trans reaches', ?_⟩
    rwa [show outcome = .ok r from returns]
  | fail e q =>
    refine ⟨.fail e q, reaches.trans (Reaches.head rfl (.refl _)), ?_⟩
    rw [show outcome = .error e from returns]
    rfl

private theorem close (rest : List Pending) (opening : Token) (r : Scanned) :
    Comes limit (resume limit rest (.paren opening) r.leave) rest (r.close opening) := by
  rw [resume, Scanned.close]
  change Comes limit (if r.next.leave.peek.kind = .rightParen then _ else _) rest _
  split
  · exact give rest _
  · exact fail rest _ _

private theorem enter {l : Level} (inside : Comes limit ⟨construct :: rest, .scan l q.enter⟩ (construct :: rest) outcome)
    {f : Scanned → Except ParseError Scanned}
    (next : ∀ r, outcome = .ok r → Comes limit ⟨construct :: rest, .give r⟩ rest (f r)) :
    Comes limit (Scanning.enter limit rest construct l q) rest
      (if q.nesting < limit then outcome.bind f else .error q.tooDeep) := by
  unfold Scanning.enter
  split
  · exact inside.bind next
  · exact fail rest _ _

end Comes

open NaturalDeduction.Parser (scanned goOn effort_lt)

mutual

/-- The steps of a production come to what it scans, whatever waits for it. -/
private theorem comes_scanned (l : Level) (q : Position) (rest : List Pending) :
    Comes limit ⟨rest, .scan l q⟩ rest (scanned limit l q) := by
  refine .head rfl ?_
  match l with
  | .atom =>
    rw [begin]
    cases own : q.peek.kind with
    | name =>
      rw [Parser.scanned_name own]
      exact .give rest _
    | const b =>
      rw [Parser.scanned_const own]
      exact .give rest _
    | leftParen =>
      have shorter := Position.left_bump_lt (p := q) (by simp [own])
      rw [Parser.scanned_leftParen own]
      refine .enter (comes_scanned .loosest q.bump.enter _) fun r _ => .head rfl ?_
      exact .close rest q.peek r
    | rightParen | connective op | not | endOfInput =>
      rw [Parser.scanned_atom_of_unexpected (by simp [own]) (by simp [own]) (by simp [own])]
      exact .fail rest _ _
  | .negation =>
    rw [begin]
    by_cases own : q.peek.kind = .not
    · have shorter := Position.left_bump_lt (p := q) (by simp [own])
      rw [if_pos own, Parser.scanned_not own]
      exact .enter (comes_scanned .negation q.bump.enter _) fun r _ => .head rfl (.held rest _)
    · rw [if_neg own, Parser.scanned_negation_eq_atom own]
      exact comes_scanned .atom q rest
  | .binary op =>
    rw [begin, Parser.scanned_binary]
    refine (comes_scanned (Level.binary op).tighter q _).bind fun r first => ?_
    have shorter := Parser.left_lt_of_scanned first
    exact comes_goOn op r rest
termination_by 8 * q.left + l.slack
decreasing_by
  · exact Nat.lt_add_right _ (effort_lt shorter)
  · exact Nat.lt_add_right _ (effort_lt shorter)
  · exact Nat.add_lt_add_left (by decide) _
  · exact Nat.add_lt_add_left (Level.slack_tighter op) _
  · exact Nat.lt_add_right _ (Nat.mul_lt_mul_of_pos_left shorter (by decide))

theorem comes_goOn (op : Connective) (r : Scanned) (rest : List Pending) :
    Comes limit ⟨.operand op :: rest, .give r⟩ rest (goOn limit op r) := by
  refine .head rfl ?_
  show Comes limit (resume limit rest (.operand op) r) rest _
  rw [resume]
  by_cases own : r.next.peek.kind = .connective op
  · have shorter := Position.left_bump_lt (p := r.next) (by simp [own])
    rw [if_pos own]
    by_cases grouping : op = .implies
    · subst grouping
      rw [if_pos rfl, Parser.goOn_implies own]
      exact .enter (comes_scanned (.binary .implies) r.next.bump.enter _) fun right _ =>
        .head rfl (.held rest _)
    · -- the joined formula is the left operand of the same production again
      rw [if_neg grouping, Parser.goOn_chain grouping own]
      change Comes limit _ rest (scanned limit _ _ >>= _ >>= goOn limit op)
      rw [bind_assoc]
      refine (comes_scanned (Level.binary op).tighter r.next.bump _).bind fun right first => .head rfl ?_
      rw [if_neg (by simp [Pending.nests, grouping]), resume, if_neg grouping]
      refine (Comes.held _ _).bind fun whole second => ?_
      have fewer : whole.next.left < r.next.bump.left := by
        rw [← Scanned.held_eq_ok second]
        exact (Parser.left_lt_of_scanned first : right.next.left < r.next.bump.left)
      exact comes_goOn op whole rest
  · rw [if_neg own, Parser.goOn_of_ne own]
    exact .give rest r
termination_by 8 * r.next.left
decreasing_by
  · exact effort_lt shorter
  · exact effort_lt shorter
  · exact Nat.mul_lt_mul_of_pos_left (Nat.lt_trans fewer shorter) (by decide)

end

private theorem run_eq_none_of_step {m n : Nat} (halts : t.step limit = none) (after : s.run limit m = some t)
    (later : m < n) : s.run limit n = none := by
  obtain ⟨k, rfl⟩ := Nat.exists_eq_add_of_lt later
  rw [Nat.add_assoc, run_add, after]
  show (t.step limit).bind (run limit k) = none
  rw [halts]
  rfl

private theorem exists_run_call (limit : Nat) (l : Level) (p : Position) :
    ∃ n task, (call l p).run limit n = some ⟨[], task⟩ ∧ task.Returns (scanned limit l p) ∧
      ∀ m, n < m → (call l p).run limit m = none := by
  obtain ⟨task, ⟨n, after⟩, returns⟩ := @comes_scanned limit l p []
  refine ⟨n, task, after, returns, fun m later => run_eq_none_of_step ?_ after later⟩
  cases task with
  | scan l q => cases returns
  | give r | fail e q => rfl

private theorem scanned_of_run_call {l : Level} {r : Scanned} {n : Nat}
    (given : (call l p).run limit n = some ⟨[], .give r⟩) : scanned limit l p = .ok r := by
  obtain ⟨m, task, after, returns, last⟩ := exists_run_call limit l p
  have halts : step limit ⟨[], .give r⟩ = none := rfl
  rcases Nat.lt_trichotomy n m with sooner | rfl | later
  · rw [run_eq_none_of_step halts given sooner] at after
    cases after
  · rw [given] at after
    cases after
    exact returns
  · rw [last n later] at given
    cases given

end Scanning

namespace Parser

/-- The productions keep the nesting balanced and move on. A call of a production, wherever it begins up to the first
end and within the limit, comes to its outcome after a number of steps; at each of them the nesting is within the limit,
and it is above zero where it is lowered. If the production succeeds, the nesting is what it was at the call, some
tokens have been taken and no end among them, and the height that is carried along is that of the formula, within the
limit. -/
theorem scan_balanced (l : Level) {p : Position} (within : p.nesting ≤ 256) (before : p.BeforeEnd) :
    (∃ n task, (Scanning.call l p).run depthLimit n = some ⟨[], task⟩ ∧ task.Returns (scanned depthLimit l p) ∧
      ∀ m, n < m → (Scanning.call l p).run depthLimit m = none) ∧
    (∀ n s, (Scanning.call l p).run depthLimit n = some s →
      s.task.position.nesting ≤ 256 ∧ (s.leaves = true → 0 < s.task.position.nesting)) ∧
    ∀ r, scanned depthLimit l p = .ok r →
      r.next.nesting = p.nesting ∧ r.next.tokens = p.tokens ∧ p.taken < r.next.taken ∧ r.next.BeforeEnd ∧
        r.height = r.formula.depth - 1 ∧ r.height ≤ 256 := by
  have balanced {n : Nat} {s : Scanning} (after : (Scanning.call l p).run depthLimit n = some s) :
      s.Balanced p depthLimit := by
    have first : (Scanning.call l p).Balanced p depthLimit := Position.Visits.start within before
    exact first.run after
  obtain ⟨n, task, after, returns, last⟩ := Scanning.exists_run_call depthLimit l p
  refine ⟨⟨n, task, after, returns, last⟩, fun m s seen => ?_, fun r done => ?_⟩
  · obtain ⟨_, visits⟩ := (balanced seen).exists_visits
    exact ⟨visits.nesting_le, (balanced seen).nesting_pos⟩
  · have visits : p.Visits depthLimit 0 r.next := by
      cases task with
      | scan l q => cases returns
      | give r' =>
        cases done.symm.trans returns
        exact balanced after
      | fail e q => cases done.symm.trans returns
    have reads : read depthLimit l p.cursor = .ok r.reading := by
      rw [← scanned_map_reading, done]
      rfl
    have consumed := consumed_of_read (c := p.cursor) within reads
    have fewer := left_lt_of_scanned done
    have moved : p.taken < r.next.taken := by
      rw [Position.left, Position.left, visits.tokens_eq] at fewer
      omega
    exact ⟨visits.nesting_eq, visits.tokens_eq, moved, visits.beforeEnd, consumed.height_eq, consumed.height_le⟩

/-- The scan of `(~p → q)` inside so many constructs goes up to the limit twice, and stops before the end. -/
theorem scan_balanced_up_to_limit :
    let p : Position := ⟨[⟨.leftParen, "(", 0⟩, ⟨.not, "~", 1⟩, ⟨.name, "p", 2⟩, ⟨.connective .implies, "->", 3⟩,
      ⟨.name, "q", 5⟩, ⟨.rightParen, ")", 6⟩, ⟨.endOfInput, "", 7⟩, ⟨.rightParen, ")", 7⟩], 0, 8, 254⟩
    p.nesting ≤ 256 ∧ p.BeforeEnd ∧
      (∃ n s, (Scanning.call .atom p).run depthLimit n = some s ∧ s.task.position.nesting = 256) ∧
      (∀ n s, (Scanning.call .atom p).run depthLimit n = some s → s.task.position.nesting ≤ 256) ∧
      ∃ r, scanned depthLimit .atom p = .ok r ∧ r.formula = .binary .implies (.not (.var "p")) (.var "q") ∧
        r.next.nesting = 254 ∧ 0 < r.next.taken ∧ r.next.BeforeEnd ∧ r.height = r.formula.depth - 1 := by
  intro p
  have within : p.nesting ≤ 256 := by decide
  have before : p.BeforeEnd := Nat.zero_le _
  have done : scanned depthLimit .atom p =
      .ok ⟨.binary .implies (.not (.var "p")) (.var "q"), 2, { p with taken := 6 }⟩ :=
    Scanning.scanned_of_run_call (n := 23) rfl
  obtain ⟨_, limited, outcome⟩ := scan_balanced .atom within before
  obtain ⟨nesting, _, moved, after, height, _⟩ := outcome _ done
  refine ⟨within, before, ⟨6, _, rfl, rfl⟩, fun n s seen => (limited n s seen).1, _, done, rfl, nesting, moved, after,
    height⟩

end Parser

end NaturalDeduction
