import NaturalDeduction.Counter
import NaturalDeduction.Formula.Basic

set_option autoImplicit false
set_option relaxedAutoImplicit false

namespace NaturalDeduction

inductive TokenKind
  | leftParen
  | rightParen
  | connective (op : Connective)
  | not
  | name
  | const (value : Bool)
  | endOfInput
  deriving DecidableEq, Repr

namespace TokenKind

def label : TokenKind → String
  | leftParen => "LPAREN"
  | rightParen => "RPAREN"
  | connective .and => "AND"
  | connective .or => "OR"
  | connective .implies => "IMPLIES"
  | connective .iff => "IFF"
  | not => "NOT"
  | name => "VAR"
  | const true => "TRUE"
  | const false => "FALSE"
  | endOfInput => "END"

end TokenKind

structure Token where
  kind : TokenKind
  text : String
  offset : Nat
  deriving DecidableEq, Repr

namespace Token

def isEnd (t : Token) : Bool :=
  t.kind == .endOfInput

def endAt (offset : Nat) : Token :=
  ⟨.endOfInput, "", offset⟩

/-- The offset right after a token, if the bytes up to there can be counted. -/
def finish (t : Token) : Except Exhausted Nat :=
  if t.offset + t.text.utf8ByteSize ≤ offsetLimit then .ok (t.offset + t.text.utf8ByteSize)
  else .error .offset

/-- The offset right after the last of some tokens, if there is one. -/
def finishOf (ts : List Token) : Except Exhausted Nat :=
  match ts.getLast? with
  | some t => t.finish
  | none => .ok 0

/-- The bytes up to the end of the last of some tokens can be counted. -/
def Counted (ts : List Token) : Prop :=
  ∀ t ∈ ts.getLast?, t.offset + t.text.utf8ByteSize ≤ offsetLimit

instance (ts : List Token) : Decidable (Counted ts) :=
  inferInstanceAs (Decidable (∀ t ∈ ts.getLast?, t.offset + t.text.utf8ByteSize ≤ offsetLimit))

section Counted

variable {ts us : List Token} {n : Nat}

theorem finishOf_of_counted (counted : Counted ts) :
    finishOf ts = .ok ((ts.getLast?.map fun t => t.offset + t.text.utf8ByteSize).getD 0) := by
  unfold finishOf
  cases last : ts.getLast? with
  | none => rfl
  | some t => exact if_pos (counted t last)

theorem finishOf_of_not_counted (beyond : ¬Counted ts) : finishOf ts = .error .offset := by
  unfold Counted at beyond
  unfold finishOf
  cases last : ts.getLast? with
  | none => simp [last] at beyond
  | some t => exact if_neg (by simpa [last] using beyond)

theorem exists_finishOf_iff : (∃ n, finishOf ts = .ok n) ↔ Counted ts := by
  by_cases counted : Counted ts
  · exact iff_of_true ⟨_, finishOf_of_counted counted⟩ counted
  · simp [finishOf_of_not_counted counted, counted]

private theorem finish_le {t : Token} (h : t.finish = .ok n) : n ≤ offsetLimit := by
  unfold finish at h
  split at h
  · rename_i within
    exact Except.ok.inj h ▸ within
  · cases h

theorem finishOf_le (h : finishOf ts = .ok n) : n ≤ offsetLimit := by
  unfold finishOf at h
  split at h
  · exact finish_le h
  · cases h
    exact Nat.zero_le _

theorem counted_append_cons {t : Token} : Counted (ts ++ t :: us) ↔ Counted (t :: us) := by
  rw [Counted, Counted, List.getLast?_append, List.getLast?_cons, Option.some_or]

theorem counted_endAt_cons (counted : Counted us) (within : n ≤ offsetLimit) : Counted (endAt n :: us) := by
  cases us with
  | cons u us => rwa [Counted, List.getLast?_cons_cons]
  | nil =>
    rintro _ ⟨⟩
    exact within

end Counted

def describe (t : Token) : String :=
  if t.isEnd then "end of input" else "'" ++ t.text ++ "'"

end Token

end NaturalDeduction
