import NaturalDeduction.Text.DefaultIgnorable
import NaturalDeduction.Text.GraphemeExtend
import NaturalDeduction.Text.Unprintable

set_option autoImplicit false
set_option relaxedAutoImplicit false

namespace NaturalDeduction.Text

def hexadecimal (n : Nat) : String :=
  String.ofList (Nat.toDigits 16 n)

def codePointEscape (c : Char) : String :=
  "\\u\x7b" ++ hexadecimal c.toNat ++ "\x7d"

/-- Whether a character is a half-width sound mark: these two extend the character before them and yet are
letters that fill a place of their own. -/
def isHalfwidthSoundMark (c : Char) : Bool :=
  c.toNat == 0xFF9E || c.toNat == 0xFF9F

/-- Whether a character can be read where it stands: it has a visible form and does not merge with the one
before it. -/
def isLegible (c : Char) : Bool :=
  isPrintable c && !isDefaultIgnorable c && (!isGraphemeExtend c || isHalfwidthSoundMark c)

def quotedChar (c : Char) : String :=
  match c with
  | '\x00' => "\\0"
  | '\t' => "\\t"
  | '\r' => "\\r"
  | '\n' => "\\n"
  | '\\' => "\\\\"
  | '"' => "\\\""
  | c => if isLegible c then c.toString else codePointEscape c

def quoted (s : String) : String :=
  "\"" ++ String.join (s.toList.map quotedChar) ++ "\""

end NaturalDeduction.Text
