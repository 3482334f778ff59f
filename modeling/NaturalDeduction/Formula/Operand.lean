import NaturalDeduction.Text.WhiteSpace

set_option autoImplicit false
set_option relaxedAutoImplicit false

namespace NaturalDeduction.Operand

/-- Whether the last character closes a parenthesis inside which so many more are open, and no earlier one
does. -/
def closesAtEnd : Nat → List Char → Bool
  | _, [] => false
  | n, '(' :: cs => closesAtEnd (n + 1) cs
  | 0, ')' :: cs => cs.isEmpty
  | n + 1, ')' :: cs => closesAtEnd n cs
  | n, _ :: cs => closesAtEnd n cs

/-- Whether a text, white space aside, stands in one pair of parentheses that begins and ends it. -/
def isEnclosed (s : String) : Bool :=
  match Text.trimChars s.toList with
  | '(' :: cs => closesAtEnd 0 cs
  | _ => false

def spellings : List (List Char) :=
  [['<', '-', '>'], ['-', '>'], ['/', '\\'], ['\\', '/'], ['&', '&'], ['|', '|'], ['^'], ['|'], ['∧'],
   ['∨'], ['→'], ['↔']]

def holdsConnective : List Char → Bool
  | [] => false
  | c :: cs => spellings.any (·.isPrefixOf (c :: cs)) || holdsConnective cs

/-- Whether the spelling of a connective occurs anywhere in a text. -/
def mentionsConnective (s : String) : Bool :=
  holdsConnective s.toList

/-- A text without white space around it, in parentheses if it needs them as an operand. -/
def ofText (s : String) : String :=
  let t := Text.trim s
  if mentionsConnective t && !isEnclosed t then "(" ++ t ++ ")" else t

end NaturalDeduction.Operand
