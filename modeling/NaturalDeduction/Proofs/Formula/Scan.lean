import NaturalDeduction.Formula.Scan
import NaturalDeduction.Proofs.Token.MaximalMunch

set_option autoImplicit false
set_option relaxedAutoImplicit false

namespace NaturalDeduction

private theorem Except.map_bind_eq {ε α β γ δ : Type} {x : Except ε α} {f : α → Except ε β} {g : β → δ} {h : α → γ}
    {k : γ → Except ε δ} (same : ∀ a, x = .ok a → (f a).map g = k (h a)) :
    (x.bind f).map g = (x.map h).bind k := by
  cases x with
  | error e => rfl
  | ok a => exact same a rfl

namespace Scanned

def held (limit : Nat) (r : Scanned) : Except ParseError Scanned :=
  if r.height ≤ limit then .ok r else .error r.next.tooDeep

def close (opening : Token) (r : Scanned) : Except ParseError Scanned :=
  if r.next.leave.peek.kind = .rightParen then .ok { r with next := r.next.leave.bump }
  else .error (.unclosedParen opening.offset r.next.leave.peek)

private theorem capped_map {bound limit : Nat} (r : Scanned) (below : r.next.left < bound) :
    (r.capped limit below).map Subtype.val = r.held limit := by
  unfold capped held
  split <;> rfl

theorem held_eq_ok {limit : Nat} {r s : Scanned} (h : r.held limit = .ok s) : r = s := by
  unfold held at h
  split at h
  · exact Except.ok.inj h
  · cases h

end Scanned

namespace Parser

/-- What a production scans, apart from the bound on the tokens that it leaves. -/
def scanned (limit : Nat) (l : Level) (p : Position) : Except ParseError Scanned :=
  (scan limit l p).map Subtype.val

def goOn (limit : Nat) : Connective → Scanned → Except ParseError Scanned
  | .implies, r =>
    if r.next.peek.kind = .connective .implies then
      if r.next.bump.nesting < limit then
        (scanned limit (.binary .implies) r.next.bump.enter).bind fun right =>
          (Scanned.join .implies r right.leave).held limit
      else .error r.next.bump.tooDeep
    else .ok r
  | op, r => (scanChain limit op r).map Subtype.val

variable {limit : Nat} {p : Position}

private theorem scanned_atom (p : Position) :
    scanned limit .atom p =
      match p.peek.kind with
      | .name => .ok ⟨.var p.peek.text, 0, p.bump⟩
      | .const b => .ok ⟨.const b, 0, p.bump⟩
      | .leftParen =>
        if p.bump.nesting < limit then
          (scanned limit .loosest p.bump.enter).bind (Scanned.close p.peek)
        else .error p.bump.tooDeep
      | _ => .error p.unexpected := by
  rw [scanned, scan]
  split
  case h_1 kind => simp only [kind, Except.map]
  case h_2 b kind => simp only [kind, Except.map]
  case h_3 kind =>
    simp only [kind]
    split
    · simp only [scanned]
      cases scan limit .loosest p.bump.enter with
      | error e => rfl
      | ok inner =>
        by_cases closes : inner.val.next.leave.peek.kind = .rightParen <;>
          simp only [closes, Except.map, Except.bind, bind, Scanned.close, if_true, if_false]
    · rfl
  case h_4 name const paren =>
    cases own : p.peek.kind with
    | name => exact absurd own name
    | const b => exact absurd own (const b)
    | leftParen => exact absurd own paren
    | rightParen | connective op | not | endOfInput => rfl

theorem scanned_name (kind : p.peek.kind = .name) :
    scanned limit .atom p = .ok ⟨.var p.peek.text, 0, p.bump⟩ := by
  rw [scanned_atom, kind]

theorem scanned_const {b : Bool} (kind : p.peek.kind = .const b) :
    scanned limit .atom p = .ok ⟨.const b, 0, p.bump⟩ := by
  rw [scanned_atom, kind]

theorem scanned_leftParen (kind : p.peek.kind = .leftParen) :
    scanned limit .atom p =
      if p.bump.nesting < limit then
        (scanned limit .loosest p.bump.enter).bind (Scanned.close p.peek)
      else .error p.bump.tooDeep := by
  rw [scanned_atom, kind]

theorem scanned_atom_of_unexpected (name : p.peek.kind ≠ .name) (const : ∀ b, p.peek.kind ≠ .const b)
    (paren : p.peek.kind ≠ .leftParen) : scanned limit .atom p = .error p.unexpected := by
  rw [scanned_atom]
  cases own : p.peek.kind with
  | name => exact absurd own name
  | const b => exact absurd own (const b)
  | leftParen => exact absurd own paren
  | rightParen | connective op | not | endOfInput => rfl

theorem scanned_not (kind : p.peek.kind = .not) :
    scanned limit .negation p =
      if p.bump.nesting < limit then
        (scanned limit .negation p.bump.enter).bind fun r => r.leave.negate.held limit
      else .error p.bump.tooDeep := by
  rw [scanned, scan, dif_pos kind]
  split
  · simp only [scanned]
    cases scan limit .negation p.bump.enter with
    | error e => rfl
    | ok inner => exact Scanned.capped_map _ _
  · rfl

theorem scanned_negation_eq_atom (h : p.peek.kind ≠ .not) :
    scanned limit .negation p = scanned limit .atom p := by
  rw [scanned, scan, dif_neg h, scanned]

private theorem scanned_implies (p : Position) :
    scanned limit (.binary .implies) p =
      (scanned limit (Level.binary .implies).tighter p).bind (goOn limit .implies) := by
  rw [scanned, scan, scanned]
  cases scan limit (Level.binary .implies).tighter p with
  | error e => rfl
  | ok left =>
    obtain ⟨left, below⟩ := left
    by_cases kind : left.next.peek.kind = .connective .implies
    · by_cases room : left.next.bump.nesting < limit
      · simp only [Except.map, Except.bind, bind, goOn, kind, room, if_true, dif_pos, scanned]
        cases scan limit (.binary .implies) left.next.bump.enter with
        | error e => rfl
        | ok right => exact Scanned.capped_map _ _
      · simp [Except.map, Except.bind, bind, goOn, kind, room]
    · simp [Except.map, Except.bind, bind, goOn, kind]

private theorem goOn_eq_chain {op : Connective} (h : op ≠ .implies) (r : Scanned) :
    goOn limit op r = (scanChain limit op r).map Subtype.val := by
  cases op with
  | implies => exact absurd rfl h
  | and | or | iff => rfl

private theorem scanned_chain {op : Connective} (grouping : op ≠ .implies) (p : Position) :
    scanned limit (.binary op) p = (scanned limit (Level.binary op).tighter p).bind (goOn limit op) := by
  rw [scanned, scan, scanned]
  · cases scan limit (Level.binary op).tighter p with
    | error e => rfl
    | ok left =>
      simp only [Except.map, Except.bind, bind, goOn_eq_chain grouping]
      cases scanChain limit op left.val <;> rfl
  · exact grouping

theorem scanned_binary (op : Connective) (p : Position) :
    scanned limit (.binary op) p = (scanned limit (Level.binary op).tighter p).bind (goOn limit op) := by
  by_cases grouping : op = .implies
  · rw [grouping]
    exact scanned_implies p
  · exact scanned_chain grouping p

theorem goOn_of_ne {op : Connective} {r : Scanned} (h : r.next.peek.kind ≠ .connective op) :
    goOn limit op r = .ok r := by
  cases op with
  | implies => simp [goOn, h]
  | and | or | iff =>
    rw [goOn, scanChain, dif_neg h]
    · rfl
    · simp

theorem goOn_implies {r : Scanned} (kind : r.next.peek.kind = .connective .implies) :
    goOn limit .implies r =
      if r.next.bump.nesting < limit then
        (scanned limit (.binary .implies) r.next.bump.enter).bind fun right =>
          (Scanned.join .implies r right.leave).held limit
      else .error r.next.bump.tooDeep := by
  simp [goOn, kind]

theorem goOn_chain {op : Connective} (grouping : op ≠ .implies) {r : Scanned}
    (kind : r.next.peek.kind = .connective op) :
    goOn limit op r =
      ((scanned limit (Level.binary op).tighter r.next.bump).bind fun right =>
        (Scanned.join op r right).held limit).bind (goOn limit op) := by
  rw [goOn_eq_chain grouping, scanChain, dif_pos kind, scanned]
  cases scan limit (Level.binary op).tighter r.next.bump with
  | error e => rfl
  | ok right =>
    by_cases high : (Scanned.join op r right.val).height ≤ limit
    · simp only [Except.map, Except.bind, bind, Scanned.capped, Scanned.held, high, if_true,
        goOn_eq_chain grouping]
      cases scanChain limit op (Scanned.join op r right.val) <;> rfl
    · simp only [Except.map, Except.bind, bind, Scanned.capped, Scanned.held, high, if_false]

theorem left_lt_of_scanned {l : Level} {r : Scanned} (h : scanned limit l p = .ok r) :
    r.next.left < p.left := by
  obtain ⟨⟨_, below⟩, _, rfl⟩ := Except.exists_of_map_eq_ok h
  exact below

end Parser

/-- The cursor at a position: the tokens before the next end, and that end. -/
def Position.cursor (p : Position) : Cursor where
  ahead := (p.tokens.drop p.taken).takeWhile (!·.isEnd)
  stop := ((p.tokens.drop p.taken).find? Token.isEnd).getD (Token.endAt p.finish)
  nesting := p.nesting

namespace Position

variable {p : Position}

private theorem drop_eq_cons (within : p.taken < p.tokens.length) :
    p.tokens.drop p.taken = p.peek :: p.tokens.drop (p.taken + 1) := by
  rw [List.drop_eq_getElem_cons within, peek, List.getElem?_eq_getElem within]
  rfl

private theorem cursor_of_isEnd (ends : p.peek.isEnd = true) : p.cursor = ⟨[], p.peek, p.nesting⟩ := by
  unfold cursor
  by_cases within : p.taken < p.tokens.length
  · simp [drop_eq_cons within, ends]
  · have past := Nat.not_lt.1 within
    simp [List.drop_eq_nil_of_le past, peek, List.getElem?_eq_none past]

private theorem cursor_of_token (token : p.peek.isEnd = false) :
    p.cursor = ⟨p.peek :: p.bump.cursor.ahead, p.bump.cursor.stop, p.bump.nesting⟩ := by
  have within : p.taken < p.tokens.length := by
    refine taken_lt_of_peek fun ends => ?_
    simp [Token.isEnd, ends] at token
  simp [cursor, bump, within, drop_eq_cons within, token]

private theorem eq_peek_of_mem_cursor {t : Token} (first : t ∈ p.cursor.ahead.head?) : t = p.peek := by
  cases ends : p.peek.isEnd with
  | true =>
    rw [cursor_of_isEnd ends] at first
    cases first
  | false =>
    rw [cursor_of_token ends] at first
    cases first
    rfl

private theorem cursor_peek (p : Position) : p.cursor.peek = p.peek := by
  cases ends : p.peek.isEnd with
  | true => rw [cursor_of_isEnd ends]; rfl
  | false => rw [cursor_of_token ends]; rfl

private theorem cursor_tooDeep (p : Position) : p.cursor.tooDeep = p.tooDeep := by
  rw [Cursor.tooDeep, cursor_peek, tooDeep]

private theorem bump_leave (p : Position) : p.leave.bump = p.bump.leave := by
  by_cases within : p.taken < p.tokens.length
  · rw [bump, bump, if_pos within, if_pos (by exact within)]
    rfl
  · rw [bump, bump, if_neg within, if_neg (by exact within)]

private theorem cursor_start (ts : List Token) (finish : Nat) :
    (⟨ts, 0, finish, 0⟩ : Position).cursor = .endingAt finish ts := rfl

end Position

namespace Scanned

def reading (r : Scanned) : Reading :=
  ⟨r.formula, r.height, r.next.cursor⟩

variable {limit : Nat}

private theorem held_map_reading (r : Scanned) : (r.held limit).map reading = r.reading.held limit := by
  by_cases low : r.height ≤ limit
  · rw [held, if_pos low]
    exact (Reading.held_of_le low).symm
  · rw [held, if_neg low, Reading.held_of_lt (Nat.not_le.1 low)]
    exact congrArg Except.error r.next.cursor_tooDeep.symm

private theorem close_map_reading (opening : Token) (r : Scanned) :
    (r.close opening).map reading = r.reading.close opening := by
  rw [close, Position.peek_leave, Reading.close, reading]
  cases ends : r.next.peek.isEnd with
  | true =>
    have other : r.next.peek.kind ≠ .rightParen := by
      intro closes
      simp [Token.isEnd, closes] at ends
    rw [if_neg other, Position.cursor_of_isEnd ends]
    rfl
  | false =>
    rw [Position.cursor_of_token ends, Position.bump_leave]
    by_cases closes : r.next.peek.kind = .rightParen
    · simp only [closes, if_true]
      rfl
    · simp only [closes, if_false]
      rfl

end Scanned

namespace Parser

variable {limit : Nat}

private theorem unexpected_eq_read {p : Position} (name : p.peek.kind ≠ .name) (const : ∀ b, p.peek.kind ≠ .const b)
    (paren : p.peek.kind ≠ .leftParen) : read limit .atom p.cursor = .error p.unexpected := by
  rw [Position.unexpected]
  cases ends : p.peek.isEnd with
  | true =>
    rw [Position.cursor_of_isEnd ends, read_nil_atom]
    rfl
  | false =>
    rw [Position.cursor_of_token ends, read_atom_of_unexpected name const paren]
    rfl

mutual

/-- A production scans what it reads from the tokens before the next end. -/
theorem scanned_map_reading (l : Level) (p : Position) :
    (scanned limit l p).map Scanned.reading = read limit l p.cursor := by
  match l with
  | .atom =>
    have token {k : TokenKind} (own : p.peek.kind = k) (other : k ≠ .endOfInput) :=
      Position.cursor_of_token (p := p) (by simp [Token.isEnd, own, other])
    cases own : p.peek.kind with
    | name =>
      rw [scanned_name own, token own (by simp), read_name own]
      rfl
    | const b =>
      rw [scanned_const own, token own (by simp), read_const own]
      rfl
    | leftParen =>
      have shorter := Position.left_bump_lt (p := p) (by simp [own])
      rw [scanned_leftParen own, token own (by simp), read_leftParen own]
      split
      · have inner : (scanned limit .loosest p.bump.enter).map Scanned.reading =
            read limit .loosest ⟨p.bump.cursor.ahead, p.bump.cursor.stop, p.bump.nesting + 1⟩ :=
          scanned_map_reading .loosest p.bump.enter
        rw [← inner]
        exact Except.map_bind_eq fun r _ => r.close_map_reading p.peek
      · exact congrArg Except.error p.bump.cursor_tooDeep.symm
    | rightParen | connective op | not | endOfInput =>
      rw [scanned_atom_of_unexpected (by simp [own]) (by simp [own]) (by simp [own]),
        unexpected_eq_read (by simp [own]) (by simp [own]) (by simp [own])]
      rfl
  | .negation =>
    by_cases own : p.peek.kind = .not
    · have shorter := Position.left_bump_lt (p := p) (by simp [own])
      rw [scanned_not own, Position.cursor_of_token (by simp [Token.isEnd, own]), read_not own]
      split
      · have operand : (scanned limit .negation p.bump.enter).map Scanned.reading =
            read limit .negation ⟨p.bump.cursor.ahead, p.bump.cursor.stop, p.bump.nesting + 1⟩ :=
          scanned_map_reading .negation p.bump.enter
        rw [← operand]
        exact Except.map_bind_eq fun r _ => r.leave.negate.held_map_reading
      · exact congrArg Except.error p.bump.cursor_tooDeep.symm
    · rw [scanned_negation_eq_atom own,
        read_negation_eq_atom fun t first => by rwa [Position.eq_peek_of_mem_cursor first]]
      exact scanned_map_reading .atom p
  | .binary op =>
    rw [scanned_binary, read_binary, ← scanned_map_reading (Level.binary op).tighter p]
    refine Except.map_bind_eq fun r first => ?_
    have shorter := left_lt_of_scanned first
    exact goOn_map_reading op r
termination_by 8 * p.left + l.slack
decreasing_by
  · exact Nat.lt_add_right _ (effort_lt shorter)
  · exact Nat.lt_add_right _ (effort_lt shorter)
  · exact Nat.add_lt_add_left (by decide) _
  · exact Nat.add_lt_add_left (Level.slack_tighter op) _
  · exact Nat.lt_add_right _ (Nat.mul_lt_mul_of_pos_left shorter (by decide))

theorem goOn_map_reading (op : Connective) (r : Scanned) :
    (goOn limit op r).map Scanned.reading = resume limit op r.reading := by
  by_cases own : r.next.peek.kind = .connective op
  · have shorter := Position.left_bump_lt (p := r.next) (by simp [own])
    have first : r.reading = ⟨r.formula, r.height,
        ⟨r.next.peek :: r.next.bump.cursor.ahead, r.next.bump.cursor.stop, r.next.bump.nesting⟩⟩ := by
      rw [Scanned.reading, Position.cursor_of_token (by simp [Token.isEnd, own])]
    by_cases grouping : op = .implies
    · subst grouping
      rw [goOn_implies own, first, resume_implies own]
      split
      · have right : (scanned limit (.binary .implies) r.next.bump.enter).map Scanned.reading =
            read limit (.binary .implies)
              ⟨r.next.bump.cursor.ahead, r.next.bump.cursor.stop, r.next.bump.nesting + 1⟩ :=
          scanned_map_reading (.binary .implies) r.next.bump.enter
        rw [← right]
        exact Except.map_bind_eq fun right _ => (Scanned.join .implies r right.leave).held_map_reading
      · exact congrArg Except.error r.next.bump.cursor_tooDeep.symm
    · -- what is scanned on the right is joined at once, so the chain goes on from a position with fewer tokens left
      have right : (scanned limit (Level.binary op).tighter r.next.bump).map Scanned.reading =
          read limit (Level.binary op).tighter
            ⟨r.next.bump.cursor.ahead, r.next.bump.cursor.stop, r.next.bump.nesting⟩ :=
        scanned_map_reading (Level.binary op).tighter r.next.bump
      have joined : ((scanned limit (Level.binary op).tighter r.next.bump).bind fun right =>
            (Scanned.join op r right).held limit).map Scanned.reading =
          ((scanned limit (Level.binary op).tighter r.next.bump).map Scanned.reading).bind fun right =>
            (Reading.join op r.formula r.height right).held limit :=
        Except.map_bind_eq fun right _ => (Scanned.join op r right).held_map_reading
      rw [goOn_chain grouping own, first, resume_chain grouping own, ← right, ← joined]
      refine Except.map_bind_eq fun whole second => ?_
      obtain ⟨operand, ends, held⟩ := Except.exists_of_bind_eq_ok second
      have fewer : whole.next.left < r.next.bump.left := by
        rw [← Scanned.held_eq_ok held]
        exact (left_lt_of_scanned ends : operand.next.left < r.next.bump.left)
      exact goOn_map_reading op whole
  · rw [goOn_of_ne own, resume_of_ne fun t first => by rwa [Position.eq_peek_of_mem_cursor first]]
    rfl
termination_by 8 * r.next.left
decreasing_by
  · exact effort_lt shorter
  · exact effort_lt shorter
  · exact Nat.mul_lt_mul_of_pos_left (Nat.lt_trans fewer shorter) (by decide)

end

end Parser

private theorem Scanned.ofReading_reading (r : Scanned) :
    Formula.ofReading r.reading =
      if r.next.peek.isEnd then .ok r.formula else .error (.trailingInput r.next.peek) := by
  rw [reading]
  cases ends : r.next.peek.isEnd with
  | true => rw [Position.cursor_of_isEnd ends]; rfl
  | false => rw [Position.cursor_of_token ends]; rfl

private theorem Cursor.endingAt_append_end {stop : Token} (ends : stop.isEnd = true) (finish : Nat)
    (ts rest : List Token) : endingAt finish (ts ++ stop :: rest) =
      ⟨ts.takeWhile (!·.isEnd), (ts.find? Token.isEnd).getD stop, 0⟩ := by
  have content : (ts ++ stop :: rest).takeWhile (!·.isEnd) = ts.takeWhile (!·.isEnd) := by
    induction ts with
    | nil => simp [ends]
    | cons t ts ih => cases own : t.isEnd <;> simp [own, ih]
  rw [endingAt, stopOf, content, List.find?_append, List.find?_cons_of_pos ends]
  cases ts.find? Token.isEnd <;> rfl

namespace Formula

private theorem scanFrom_eq_ofCursor (p : Position) : scanFrom p = ofCursor p.cursor := by
  rw [ofCursor_eq_read, ← Parser.scanned_map_reading, Parser.scanned, scanFrom]
  cases Parser.scan depthLimit .loosest p with
  | error e => rfl
  | ok r => exact r.val.ofReading_reading.symm

private theorem scan_eq_ofTokens (ts : List Token) : scan ts = ofTokens ts := by
  rw [scan, Position.start, ofTokens, Cursor.ofTokens]
  cases Token.finishOf ts with
  | error e => rfl
  | ok finish =>
    refine congrArg Except.ok ?_
    rw [scanFrom_eq_ofCursor, Position.cursor_start]

private theorem scan_eq_error_iff {ts : List Token} : scan ts = .error .offset ↔ ¬Token.Counted ts := by
  rw [scan_eq_ofTokens]
  constructor
  · intro failed counted
    obtain ⟨finish, ends⟩ := Token.exists_finishOf_iff.2 counted
    rw [ofTokens_of_finishOf ends] at failed
    cases failed
  · exact ofTokens_of_not_counted

/-- The tokens of a text that has offsets throughout are scanned, with the outcome of the text. -/
theorem parse_eq_scan {s : String} {ts : List Token} (tokens : tokenize s = .ok ts)
    (size : s.utf8ByteSize ≤ offsetLimit) :
    ∃ outcome, scan ts = .ok outcome ∧ parse s = outcome.mapError .grammatical :=
  ⟨_, (scan_eq_ofTokens ts).trans (ofTokens_of_finishOf (finishOf_of_tokenize tokens size)),
    parse_of_tokenize tokens⟩

/-- Lists that begin alike are scanned alike, wherever an offset for a missing end is. -/
private theorem scan_congr {ts us : List Token} (first : Token.Counted ts) (second : Token.Counted us)
    (same : ∀ m n, Token.finishOf ts = .ok m → Cursor.endingAt m ts = Cursor.endingAt n us) :
    scan ts = scan us := by
  obtain ⟨m, ends⟩ := Token.exists_finishOf_iff.2 first
  obtain ⟨n, ends'⟩ := Token.exists_finishOf_iff.2 second
  rw [scan_eq_ofTokens, scan_eq_ofTokens, ofTokens_of_finishOf ends, ofTokens_of_finishOf ends', same m n ends]

/-- An end that is missing is as good as one at the end of the last token, and what comes after an end makes no
difference: the result is the same formula or the same error. Scanning the whole list does what reading the tokens
before the first end does. Lists of which the bytes cannot be counted up to the end of the last token, which may come
after an end, have no result. -/
theorem scan_append_end :
    (∀ (ts : List Token) (finish : Nat), Token.finishOf ts = .ok finish →
      scan (ts ++ [Token.endAt finish]) = scan ts ∧
        ∀ rest, Token.Counted rest → scan (ts ++ Token.endAt finish :: rest) = scan ts) ∧
      (∀ (before after after' : List Token) (text : String) (offset : Nat),
        Token.Counted (⟨.endOfInput, text, offset⟩ :: after) →
        Token.Counted (⟨.endOfInput, text, offset⟩ :: after') →
          scan (before ++ ⟨.endOfInput, text, offset⟩ :: after) =
            scan (before ++ ⟨.endOfInput, text, offset⟩ :: after')) ∧
      ∀ us : List Token, scan us = ofTokens us ∧ (scan us = .error .offset ↔ ¬Token.Counted us) := by
  refine ⟨fun ts finish ends => ?_, ?_, fun us => ⟨scan_eq_ofTokens us, scan_eq_error_iff⟩⟩
  · have unseen (rest : List Token) (counted : Token.Counted rest) :
        scan (ts ++ Token.endAt finish :: rest) = scan ts := by
      have whole : Token.Counted (ts ++ Token.endAt finish :: rest) :=
        Token.counted_append_cons.2 (Token.counted_endAt_cons counted (Token.finishOf_le ends))
      refine (scan_congr (Token.exists_finishOf_iff.1 ⟨finish, ends⟩) whole fun m n given => ?_).symm
      cases ends.symm.trans given
      exact (Cursor.endingAt_append_end rfl n ts rest).symm
    exact ⟨unseen [] (by simp [Token.Counted]), unseen⟩
  · intro before after after' text offset counted counted'
    refine scan_congr (Token.counted_append_cons.2 counted) (Token.counted_append_cons.2 counted') fun m n _ => ?_
    rw [Cursor.endingAt_append_end rfl, Cursor.endingAt_append_end rfl]

/-- A name without an end, with one, and with one before another name that ends at the last offset. -/
theorem scan_append_end_of_name :
    Token.finishOf [⟨.name, "p", 0⟩] = .ok 1 ∧ Token.Counted [⟨.name, "q", offsetLimit - 1⟩] ∧
      scan [⟨.name, "p", 0⟩, Token.endAt 1] = scan [⟨.name, "p", 0⟩] ∧
      scan [⟨.name, "p", 0⟩, Token.endAt 1, ⟨.name, "q", offsetLimit - 1⟩] = scan [⟨.name, "p", 0⟩] := by
  have finish : Token.finishOf [⟨.name, "p", 0⟩] = .ok 1 := rfl
  have counted : Token.Counted [⟨.name, "q", offsetLimit - 1⟩] := by decide
  obtain ⟨missing, unseen⟩ := scan_append_end.1 [⟨.name, "p", 0⟩] 1 finish
  exact ⟨finish, counted, missing, unseen _ counted⟩

/-- An end is no help where a token after it leaves no offset. -/
example : scan [⟨.name, "p", 0⟩, Token.endAt 1, ⟨.name, "q", offsetLimit⟩] = .error .offset := rfl

end Formula

end NaturalDeduction
