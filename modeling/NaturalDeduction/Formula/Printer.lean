import NaturalDeduction.Formula.Level

set_option autoImplicit false
set_option relaxedAutoImplicit false

namespace NaturalDeduction

inductive Lexeme
  | leftParen
  | rightParen
  | connective (op : Connective)
  | not
  | name (text : String)
  | const (value : Bool)
  deriving DecidableEq, Repr

inductive Script
  | latex | unicode | ascii
  deriving DecidableEq, Repr

structure Style where
  script : Script
  spaced : Bool
  deriving DecidableEq, Repr

namespace Script

def connective : Script → Connective → String
  | latex, .and => "\\land"
  | latex, .or => "\\lor"
  | latex, .implies => "\\to"
  | latex, .iff => "\\leftrightarrow"
  | unicode, .and => "∧"
  | unicode, .or => "∨"
  | unicode, .implies => "→"
  | unicode, .iff => "↔"
  | ascii, .and => "^"
  | ascii, .or => "|"
  | ascii, .implies => "->"
  | ascii, .iff => "<->"

def negation : Script → String
  | latex => "\\neg "
  | unicode => "¬"
  | ascii => "~"

def const : Script → Bool → String
  | latex, true => "\\top"
  | latex, false => "\\bot"
  | unicode, true => "⊤"
  | unicode, false => "⊥"
  | ascii, true => "T"
  | ascii, false => "F"

end Script

namespace Style

def display : Style := ⟨.latex, true⟩

/-- The style of the text that a proof keeps and the parser reads back. -/
def canonical : Style := ⟨.ascii, true⟩

def lexeme (style : Style) : Lexeme → String
  | .leftParen => "("
  | .rightParen => ")"
  | .connective op =>
    if style.spaced then " " ++ style.script.connective op ++ " " else style.script.connective op
  | .not => style.script.negation
  | .name text => text
  | .const b => style.script.const b

def write (style : Style) (ls : List Lexeme) : String :=
  String.join (ls.map style.lexeme)

end Style

namespace Formula

/-- The lexemes of a formula in a place that asks for a level: parentheses stand around it exactly when its
own level is looser. -/
def lexemesAt (required : Level) (f : Formula) : List Lexeme :=
  let bare : List Lexeme :=
    match f with
    | var x => [.name x]
    | const b => [.const b]
    | not g => .not :: lexemesAt .negation g
    | binary op g h =>
      lexemesAt (.left op) g ++ .connective op :: lexemesAt (.right op) h
  if f.level.rank < required.rank then .leftParen :: bare ++ [.rightParen] else bare

def lexemes (f : Formula) : List Lexeme :=
  f.lexemesAt .loosest

def write (f : Formula) (style : Style) : String :=
  style.write f.lexemes

def text (f : Formula) : String :=
  f.write .canonical

end Formula

end NaturalDeduction
