import NaturalDeduction.Text.WhiteSpace
import NaturalDeduction.Token.Spelling

set_option autoImplicit false
set_option relaxedAutoImplicit false

namespace NaturalDeduction

structure LexError where
  character : Char
  offset : Nat
  deriving DecidableEq, Repr

def LexError.message (e : LexError) : String :=
  "Unexpected character '" ++ e.character.toString ++ "' at position " ++ toString e.offset

/-- A place in a text: the characters from there on and the number of bytes before them. A scanner is
finished once it has given the end of the input or an error. -/
structure Scanner where
  rest : List Char
  offset : Nat
  finished : Bool

namespace Scanner

def ofString (s : String) : Scanner :=
  ⟨s.toList, 0, false⟩

def skipWhiteSpace (s : Scanner) : Scanner :=
  { s with
    rest := Text.trimStart s.rest
    offset := s.offset + Text.byteLength (s.rest.takeWhile Text.isWhiteSpace) }

/-- The token or the error at a place that has no white space before it, and the place after it. -/
def read (s : Scanner) : Except LexError Token × Scanner :=
  match s.rest with
  | [] => (.ok (Token.endAt s.offset), { s with finished := true })
  | c :: _ =>
    match Token.lexeme? s.rest with
    | none => (.error ⟨c, s.offset⟩, { s with finished := true })
    | some l =>
      (.ok ⟨l.kind, String.ofList l.text, s.offset⟩,
        { s with rest := l.rest, offset := s.offset + Text.byteLength l.text })

/-- The next token or error and the place after it, or `none` from a finished scanner. -/
def next? (s : Scanner) : Option (Except LexError Token × Scanner) :=
  if s.finished then none else some s.skipWhiteSpace.read

def remaining (s : Scanner) : Nat :=
  if s.finished then 0 else s.rest.length + 1

private theorem read_remaining (s : Scanner) (h : s.finished = false) :
    s.read.2.remaining < s.remaining := by
  unfold read
  split
  · simp [remaining, h]
  · split
    · simp [remaining, h]
    · rename_i l found
      have := Token.lexeme?_length found
      simp only [remaining, h]
      simpa using this

private theorem next?_remaining {s s' : Scanner} {item : Except LexError Token}
    (h : s.next? = some (item, s')) : s'.remaining < s.remaining := by
  unfold next? at h
  split at h
  · cases h
  · rename_i running
    have unfinished : s.finished = false := by simpa using running
    simp only [Option.some.injEq] at h
    have shorter := read_remaining s.skipWhiteSpace unfinished
    rw [h] at shorter
    have skipped : s.skipWhiteSpace.remaining ≤ s.remaining := by
      have := (List.dropWhile_sublist (l := s.rest) Text.isWhiteSpace).length_le
      simp only [remaining, skipWhiteSpace, Text.trimStart, unfinished]
      simpa using this
    exact Nat.lt_of_lt_of_le shorter skipped

theorem next?_of_finished {s : Scanner} (h : s.finished = true) : s.next? = none := by
  simp [next?, h]

/-- The tokens from a place on, up to the first error. -/
def tokens (s : Scanner) : Except LexError (List Token) :=
  match _h : s.next? with
  | none => .ok []
  | some (.error e, _) => .error e
  | some (.ok t, s') =>
    match tokens s' with
    | .error e => .error e
    | .ok ts => .ok (t :: ts)
termination_by s.remaining
decreasing_by exact next?_remaining _h

end Scanner

/-- The tokens of a text, the last of which ends the input. -/
def tokenize (s : String) : Except LexError (List Token) :=
  (Scanner.ofString s).tokens

end NaturalDeduction
