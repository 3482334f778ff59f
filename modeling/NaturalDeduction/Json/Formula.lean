import NaturalDeduction.Formula.Printer
import NaturalDeduction.Json.Basic
import NaturalDeduction.Token.Basic

set_option autoImplicit false
set_option relaxedAutoImplicit false

namespace NaturalDeduction

def Connective.jsonName : Connective → String
  | and => "And"
  | or => "Or"
  | implies => "Implies"
  | iff => "Iff"

def Connective.ofJsonName? (s : String) : Option Connective :=
  [and, or, implies, iff].find? (·.jsonName == s)

namespace Formula

def toJson : Formula → Json
  | var x => .obj [("Var", .str x)]
  | const true => .str "True"
  | const false => .str "False"
  | not f => .obj [("Not", f.toJson)]
  | binary op f g => .obj [(op.jsonName, .arr [f.toJson, g.toJson])]

def ofJson? : Json → Option Formula
  | .str "True" => some (const true)
  | .str "False" => some (const false)
  | .obj [("True", .null)] => some (const true)
  | .obj [("False", .null)] => some (const false)
  | .obj [("Var", .str x)] => some (var x)
  | .obj [("Not", j)] => (ofJson? j).map not
  | .obj [(name, .arr [j, k])] => do
    let op ← Connective.ofJsonName? name
    return binary op (← ofJson? j) (← ofJson? k)
  | _ => none

end Formula

namespace TokenKind

def all : List TokenKind :=
  [leftParen, rightParen, connective .and, connective .or, connective .implies, connective .iff, not,
   name, const true, const false, endOfInput]

def jsonName : TokenKind → String
  | leftParen => "LParen"
  | rightParen => "RParen"
  | connective op => op.jsonName
  | not => "Not"
  | name => "Var"
  | const true => "True"
  | const false => "False"
  | endOfInput => "End"

def toJson (k : TokenKind) : Json :=
  .str k.jsonName

def ofJson? (j : Json) : Option TokenKind :=
  j.word?.bind fun s => all.find? (·.jsonName == s)

end TokenKind

namespace Token

def toJson (t : Token) : Json :=
  .obj [("kind", t.kind.toJson), ("text", .str t.text), ("offset", .nat t.offset)]

def ofJson? (j : Json) : Option Token := do
  let j ← j.record? ["kind", "text", "offset"]
  return {
    kind := ← j.read? "kind" TokenKind.ofJson?
    text := ← j.read? "text" Json.str?
    offset := ← j.read? "offset" Json.size? }

end Token

namespace Script

def jsonName : Script → String
  | latex => "latex"
  | unicode => "unicode"
  | ascii => "ascii"

def toJson (s : Script) : Json :=
  .str s.jsonName

def ofJson? (j : Json) : Option Script :=
  j.word?.bind fun s => [latex, unicode, ascii].find? (·.jsonName == s)

end Script

namespace Style

def toJson (style : Style) : Json :=
  .obj [("notation", style.script.toJson), ("spaced_binary", .bool style.spaced)]

def ofJson? (j : Json) : Option Style := do
  let j ← j.record? ["notation", "spaced_binary"]
  return {
    script := ← j.read? "notation" Script.ofJson?
    spaced := ← j.read? "spaced_binary" Json.bool? }

end Style

end NaturalDeduction
