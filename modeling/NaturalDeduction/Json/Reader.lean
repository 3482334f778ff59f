import NaturalDeduction.Json.Basic

/-!
Reading JSON text. The text is cut into lexemes, and a machine with a stack of open arrays and objects puts
the value together. Arrays and objects may be nested up to `Json.nestingLimit`, and of two fields with one name
the later one counts.
-/

set_option autoImplicit false
set_option relaxedAutoImplicit false

namespace NaturalDeduction.Json

/-- The largest number of arrays and objects around a value. -/
def nestingLimit : Nat := 127

inductive Lexeme
  | openArray | closeArray | openObject | closeObject | colon | comma
  | string (value : String)
  | atom (value : Json)

def hexDigit? (c : Char) : Option Nat :=
  if c.isDigit then some (c.toNat - '0'.toNat)
  else if 'a' ≤ c ∧ c ≤ 'f' then some (c.toNat - 'a'.toNat + 10)
  else if 'A' ≤ c ∧ c ≤ 'F' then some (c.toNat - 'A'.toNat + 10)
  else none

def hex? (cs : List Char) : Option Nat :=
  cs.foldlM (fun n c => (hexDigit? c).map (16 * n + ·)) 0

def unescape? : Char → Option Char
  | '"' => some '"'
  | '\\' => some '\\'
  | '/' => some '/'
  | 'b' => some '\x08'
  | 'f' => some '\x0c'
  | 'n' => some '\n'
  | 'r' => some '\r'
  | 't' => some '\t'
  | _ => none

def scalar? (n : Nat) : Option Char :=
  if n < 0xD800 ∨ 0xDFFF < n then some (Char.ofNat n) else none

def surrogatePair? (high low : Nat) : Option Char :=
  if 0xD800 ≤ high ∧ high ≤ 0xDBFF ∧ 0xDC00 ≤ low ∧ low ≤ 0xDFFF then
    some (Char.ofNat (0x10000 + (high - 0xD800) * 0x400 + (low - 0xDC00)))
  else none

def prepend (x : Char) (r : Option (List Char × List Char)) : Option (List Char × List Char) :=
  r.map fun (xs, tail) => (x :: xs, tail)

def string? : List Char → Option (List Char × List Char)
  | [] => none
  | '"' :: rest => some ([], rest)
  | '\\' :: 'u' :: a :: b :: c :: d :: rest =>
    match (hex? [a, b, c, d]).bind scalar?, rest with
    | some x, rest => prepend x (string? rest)
    | none, '\\' :: 'u' :: e :: f :: g :: h :: rest =>
      match (hex? [a, b, c, d]).bind fun high => (hex? [e, f, g, h]).bind (surrogatePair? high) with
      | some x => prepend x (string? rest)
      | none => none
    | none, _ => none
  | '\\' :: e :: rest =>
    match unescape? e with
    | some x => prepend x (string? rest)
    | none => none
  | c :: rest => if c.toNat < 0x20 then none else prepend c (string? rest)

private theorem prepend_length {rest tail xs : List Char} {x : Char} {n : Nat}
    (shorter : ∀ {ys t : List Char}, string? rest = some (ys, t) → t.length < rest.length)
    (h : prepend x (string? rest) = some (xs, tail)) (longer : rest.length ≤ n) :
    tail.length < n := by
  obtain ⟨⟨ys, t⟩, eq, pair⟩ := Option.map_eq_some_iff.1 h
  obtain ⟨_, rfl⟩ := Prod.mk.inj pair
  exact Nat.lt_of_lt_of_le (shorter eq) longer

private theorem string?_length {cs xs tail : List Char} (h : string? cs = some (xs, tail)) :
    tail.length < cs.length := by
  fun_induction string? cs generalizing xs tail with
  | case1 => cases h
  | case2 rest =>
    obtain ⟨_, rfl⟩ := Prod.mk.inj (Option.some.inj h)
    exact Nat.lt_succ_self _
  | case3 _ _ _ _ _ _ _ ih => exact prepend_length ih h (by simp only [List.length_cons]; omega)
  | case4 _ _ _ _ _ _ _ _ _ _ _ _ ih =>
    exact prepend_length ih h (by simp only [List.length_cons]; omega)
  | case5 => cases h
  | case6 => cases h
  | case7 _ _ _ _ _ ih => exact prepend_length ih h (by simp only [List.length_cons]; omega)
  | case8 => cases h
  | case9 => cases h
  | case10 _ _ _ _ _ _ ih => exact prepend_length ih h (by simp only [List.length_cons]; omega)

def isNumberChar (c : Char) : Bool :=
  c.isDigit || c == '-' || c == '+' || c == '.' || c == 'e' || c == 'E'

def areDigits (cs : List Char) : Bool :=
  !cs.isEmpty && cs.all Char.isDigit

/-- Whether characters are digits without a zero that could be left out. -/
def isInteger : List Char → Bool
  | ['0'] => true
  | '0' :: _ => false
  | cs => areDigits cs

def isExponent : List Char → Bool
  | [] => true
  | e :: '+' :: cs => (e == 'e' || e == 'E') && areDigits cs
  | e :: '-' :: cs => (e == 'e' || e == 'E') && areDigits cs
  | e :: cs => (e == 'e' || e == 'E') && areDigits cs

def isFraction : List Char → Bool
  | '.' :: cs => areDigits (cs.takeWhile Char.isDigit) && isExponent (cs.dropWhile Char.isDigit)
  | cs => isExponent cs

def digitsValue (cs : List Char) : Nat :=
  cs.foldl (fun n c => 10 * n + (c.toNat - '0'.toNat)) 0

def unsigned? (negative : Bool) (cs : List Char) : Option Json :=
  let whole := cs.takeWhile Char.isDigit
  let rest := cs.dropWhile Char.isDigit
  let sign : List Char := if negative then ['-'] else []
  if isInteger whole && isFraction rest then
    if rest.isEmpty && !(negative && digitsValue whole == 0) then
      some (.int (if negative then -(digitsValue whole : Int) else digitsValue whole))
    else some (.decimal (String.ofList (sign ++ cs)))
  else none

def number? : List Char → Option Json
  | '-' :: cs => unsigned? true cs
  | cs => unsigned? false cs

def literal? (cs : List Char) : Option Json :=
  if cs = ['n', 'u', 'l', 'l'] then some .null
  else if cs = ['t', 'r', 'u', 'e'] then some (.bool true)
  else if cs = ['f', 'a', 'l', 's', 'e'] then some (.bool false)
  else none

def punctuation? : Char → Option Lexeme
  | '[' => some .openArray
  | ']' => some .closeArray
  | '\x7b' => some .openObject
  | '\x7d' => some .closeObject
  | ':' => some .colon
  | ',' => some .comma
  | _ => none

def isBlank (c : Char) : Bool :=
  c == ' ' || c == '\t' || c == '\n' || c == '\r'

def lexemes? (cs : List Char) : Option (List Lexeme) :=
  match cs with
  | [] => some []
  | c :: rest =>
    if isBlank c then lexemes? rest
    else if c = '"' then
      match _h : string? rest with
      | none => none
      | some (xs, tail) => (lexemes? tail).map (.string (String.ofList xs) :: ·)
    else if isNumberChar c then do
      let j ← number? (c :: rest.takeWhile isNumberChar)
      (lexemes? (rest.dropWhile isNumberChar)).map (.atom j :: ·)
    else if c.isAlpha then do
      let j ← literal? (c :: rest.takeWhile Char.isAlpha)
      (lexemes? (rest.dropWhile Char.isAlpha)).map (.atom j :: ·)
    else do
      let l ← punctuation? c
      (lexemes? rest).map (l :: ·)
termination_by cs.length
decreasing_by
  · exact Nat.lt_succ_self _
  · exact Nat.lt_succ_of_lt (string?_length _h)
  · exact Nat.lt_succ_of_le (List.dropWhile_sublist _).length_le
  · exact Nat.lt_succ_of_le (List.dropWhile_sublist _).length_le
  · exact Nat.lt_succ_self _

inductive Frame
  /-- The items so far, the last one first. -/
  | array (items : List Json)
  /-- The fields so far and the name of the one that is due. -/
  | object (fields : List (String × Json)) (name : String)

/-- Where the machine stands; the frames are the open arrays and objects, the innermost first. -/
inductive Machine
  /-- A value is due. -/
  | value (frames : List Frame)
  /-- The first item of an array or its end is due. -/
  | firstItem (frames : List Frame)
  /-- The first name of an object or its end is due. -/
  | firstName (frames : List Frame)
  /-- A name of an object is due. -/
  | fieldName (fields : List (String × Json)) (frames : List Frame)
  /-- The colon after a name is due. -/
  | colon (fields : List (String × Json)) (name : String) (frames : List Frame)
  /-- A comma in an array or its end is due. -/
  | afterItem (items : List Json) (frames : List Frame)
  /-- A comma in an object or its end is due. -/
  | afterField (fields : List (String × Json)) (frames : List Frame)
  /-- The whole value has been read. -/
  | done (value : Json)

def setField (fields : List (String × Json)) (name : String) (value : Json) :
    List (String × Json) :=
  fields.filter (·.1 != name) ++ [(name, value)]

namespace Machine

def close (value : Json) : List Frame → Machine
  | [] => done value
  | .array items :: frames => afterItem (value :: items) frames
  | .object fields name :: frames => afterField (setField fields name value) frames

def beginValue (frames : List Frame) : Lexeme → Option Machine
  | .atom j => some (close j frames)
  | .string s => some (close (.str s) frames)
  | .openArray => if frames.length < nestingLimit then some (firstItem frames) else none
  | .openObject => if frames.length < nestingLimit then some (firstName frames) else none
  | _ => none

/-- The machine after one more lexeme, unless that one does not fit. -/
def step : Machine → Lexeme → Option Machine
  | value frames, l => beginValue frames l
  | firstItem frames, .closeArray => some (close (.arr []) frames)
  | firstItem frames, l => beginValue (.array [] :: frames) l
  | firstName frames, .closeObject => some (close (.obj []) frames)
  | firstName frames, .string s => some (colon [] s frames)
  | fieldName fields frames, .string s => some (colon fields s frames)
  | colon fields s frames, .colon => some (value (.object fields s :: frames))
  | afterItem items frames, .comma => some (value (.array items :: frames))
  | afterItem items frames, .closeArray => some (close (.arr items.reverse) frames)
  | afterField fields frames, .comma => some (fieldName fields frames)
  | afterField fields frames, .closeObject => some (close (.obj fields) frames)
  | _, _ => none

end Machine

def parse (s : String) : Option Json := do
  match ← (← lexemes? s.toList).foldlM Machine.step (.value []) with
  | .done j => some j
  | _ => none

end NaturalDeduction.Json
