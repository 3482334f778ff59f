set_option autoImplicit false
set_option relaxedAutoImplicit false

namespace NaturalDeduction.Text

/-- The fields before, between and after the separators; there is always at least one. -/
def fields (separator : Char) : List Char → List (List Char)
  | [] => [[]]
  | c :: cs =>
    if c = separator then [] :: fields separator cs
    else
      match fields separator cs with
      | [] => [[c]]
      | f :: fs => (c :: f) :: fs

theorem fields_ne_nil (separator : Char) (cs : List Char) : fields separator cs ≠ [] := by
  cases cs with
  | nil => simp [fields]
  | cons c cs =>
    unfold fields
    split
    · simp
    · split <;> simp

def digitsValue (n : Nat) : List Char → Option Nat
  | [] => some n
  | c :: cs => if c.isDigit then digitsValue (10 * n + (c.toNat - '0'.toNat)) cs else none

def unsigned? : List Char → Option Nat
  | [] => none
  | cs => digitsValue 0 cs

def decimal? : List Char → Option Nat
  | '+' :: cs => unsigned? cs
  | cs => unsigned? cs

end NaturalDeduction.Text
