set_option autoImplicit false
set_option relaxedAutoImplicit false

namespace NaturalDeduction

/-- A JSON value. A number with a fraction, an exponent or a signed zero keeps its text. -/
inductive Json
  | null
  | bool (value : Bool)
  | int (value : Int)
  | decimal (text : String)
  | str (value : String)
  | arr (items : List Json)
  | obj (fields : List (String × Json))
  deriving Repr

namespace Json

def nat (n : Nat) : Json := int n

def field? (name : String) : Json → Option Json
  | obj fields => fields.lookup name
  | _ => none

def str? : Json → Option String
  | str s => some s
  | _ => none

/-- The word that a value stands for: a string, or the name of the only field of an object if that field is
null. -/
def word? : Json → Option String
  | str s => some s
  | obj [(s, null)] => some s
  | _ => none

/-- A record with the given fields as an object. Instead of an object, a record may be an array of its fields
in their order, from which the last ones may be missing. -/
def record? (names : List String) : Json → Option Json
  | obj fields => some (obj fields)
  | arr items => if items.length ≤ names.length then some (obj (names.zip items)) else none
  | _ => none

@[simp] theorem record?_obj (names : List String) (fields : List (String × Json)) :
    record? names (obj fields) = some (obj fields) := rfl

def bool? : Json → Option Bool
  | bool b => some b
  | _ => none

def nat? : Json → Option Nat
  | int (.ofNat n) => some n
  | _ => none

def sizeLimit : Nat := 18446744073709551615

def size? (j : Json) : Option Nat :=
  j.nat?.filter (· ≤ sizeLimit)

def arr? : Json → Option (List Json)
  | arr items => some items
  | _ => none

def read? {α : Type} (j : Json) (name : String) (decode : Json → Option α) : Option α :=
  (j.field? name).bind decode

def list? {α : Type} (decode : Json → Option α) (j : Json) : Option (List α) :=
  j.arr?.bind fun items => items.mapM decode

def fourDigits (n : Nat) : String :=
  let digits := Nat.toDigits 16 n
  String.ofList (List.replicate (4 - digits.length) '0' ++ digits)

def escaped (c : Char) : String :=
  match c with
  | '"' => "\\\""
  | '\\' => "\\\\"
  | '\x08' => "\\b"
  | '\x0c' => "\\f"
  | '\n' => "\\n"
  | '\r' => "\\r"
  | '\t' => "\\t"
  | c => if c.toNat < 0x20 then "\\u" ++ fourDigits c.toNat else c.toString

def quote (s : String) : String :=
  "\"" ++ String.join (s.toList.map escaped) ++ "\""

mutual

def text : Json → String
  | null => "null"
  | bool true => "true"
  | bool false => "false"
  | int n => toString n
  | decimal t => t
  | str s => quote s
  | arr items => "[" ++ String.intercalate "," (itemTexts items) ++ "]"
  | obj fields => "\x7b" ++ String.intercalate "," (fieldTexts fields) ++ "\x7d"

def itemTexts : List Json → List String
  | [] => []
  | j :: js => j.text :: itemTexts js

def fieldTexts : List (String × Json) → List String
  | [] => []
  | (name, j) :: fields => (quote name ++ ":" ++ j.text) :: fieldTexts fields

end

end Json

end NaturalDeduction
