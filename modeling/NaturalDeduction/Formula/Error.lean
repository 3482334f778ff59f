import NaturalDeduction.Token.Lexer

set_option autoImplicit false
set_option relaxedAutoImplicit false

namespace NaturalDeduction

/-- The largest nesting that the parser enters and the largest height that it builds. -/
def depthLimit : Nat := 256

inductive ParseError
  /-- An operand is due, and this token begins none. -/
  | unexpectedToken (found : Token)
  /-- An operand is due where the input ends. -/
  | unexpectedEnd
  /-- The parenthesis at `opening` is not closed where `found` stands. -/
  | unclosedParen (opening : Nat) (found : Token)
  /-- A whole formula ends before `found`. -/
  | trailingInput (found : Token)
  /-- The formula goes beyond `depthLimit` before `offset`. -/
  | tooDeep (offset : Nat)
  deriving DecidableEq, Repr

namespace ParseError

def operandNames : String := "a variable, a constant, '~' or '('"

def message : ParseError → String
  | unexpectedToken found =>
    "Unexpected token " ++ found.describe ++ " at position " ++ toString found.offset ++
      ", expected " ++ operandNames
  | unexpectedEnd => "Unexpected end of input, expected " ++ operandNames
  | unclosedParen opening found =>
    "Missing ')' for '(' at position " ++ toString opening ++ ", found " ++ found.describe
  | trailingInput found =>
    "Unexpected token " ++ found.describe ++ " at position " ++ toString found.offset ++
      " after complete formula"
  | tooDeep offset =>
    "Formula nested deeper than " ++ toString depthLimit ++ " levels at position " ++
      toString offset

end ParseError

inductive FormulaError
  | lexical (cause : LexError)
  | grammatical (cause : ParseError)
  deriving DecidableEq, Repr

def FormulaError.message : FormulaError → String
  | lexical cause => cause.message
  | grammatical cause => cause.message

end NaturalDeduction
