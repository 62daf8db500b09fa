import Switchboard.Text.Blank
import Switchboard.Text.DecimalDigit
import Switchboard.Value.Display
/-! # Phone numbers

A phone number is looked up by its normal form: the decimal digits in order, after a plus sign when the
first character that is a digit or a plus sign is one. A text with neither is only trimmed.
-/
namespace Switchboard.PhoneNumber

open Switchboard.Text

def isSignificant (c : Char) : Bool :=
  isDecimalDigit c || c == '+'

def normalForm (s : List Char) : List Char :=
  let trimmed := trimBy isBlank s
  match trimmed.filter isSignificant with
  | [] => trimmed
  | c :: rest => c :: rest.filter (· != '+')

def normalizeString (s : String) : String :=
  String.ofList (normalForm s.toList)

/-- The normal form of a text. It has no halves, unless the text is only trimmed. -/
def normalize : Text → Text
  | plain s => normalizeString s
  | loose symbols hasHalf =>
    if (loose symbols hasHalf).chars.any isSignificant then
      String.ofList (normalForm (loose symbols hasHalf).chars)
    else (loose symbols hasHalf).trim

/-- The normal form of any value: null stays null, another value is taken by its text if it has one. -/
def normalizeValue? : Value → Option Value
  | .null => some .null
  | v => v.text?.map fun t => .str (normalize t)

end Switchboard.PhoneNumber
