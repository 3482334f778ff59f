import NaturalDeduction.Text.Lowercase
import NaturalDeduction.Text.WhiteSpace

set_option autoImplicit false
set_option relaxedAutoImplicit false

namespace NaturalDeduction.Comparison

def isSignificant (c : Char) : Bool :=
  !Text.isWhiteSpace c && c != '(' && c != ')'

/-- The characters that count, in lower case. -/
def essence (s : String) : String :=
  String.ofList ((s.toList.filter isSignificant).flatMap Text.lowerChar)

/-- Whether two texts are the same formula up to white space, parentheses and case. -/
def sameFormula (s t : String) : Bool :=
  essence s == essence t

end NaturalDeduction.Comparison
