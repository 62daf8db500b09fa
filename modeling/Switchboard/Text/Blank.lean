import Switchboard.Text.Basic
/-! # Blank characters

Three classes of blanks are in use, each in the next: the ASCII blanks, the characters with the
white-space property, and these together with the four ASCII separators. Trimming takes the class of
blanks as an argument and removes them at both ends.
-/
namespace Switchboard.Text

def isAsciiBlank (c : Char) : Bool :=
  c = ' ' || (9 ≤ c.toNat && c.toNat ≤ 13)

def isWhiteSpace (c : Char) : Bool :=
  isAsciiBlank c || c = '\u0085' || c = '\u00a0' || c = '\u1680' ||
    (0x2000 ≤ c.toNat && c.toNat ≤ 0x200a) || c = '\u2028' || c = '\u2029' || c = '\u202f' ||
    c = '\u205f' || c = '\u3000'

def isBlank (c : Char) : Bool :=
  isWhiteSpace c || (0x1c ≤ c.toNat && c.toNat ≤ 0x1f)

def trimEnd {α : Type} (p : α → Bool) (s : List α) : List α :=
  (s.reverse.dropWhile p).reverse

def trimBy {α : Type} (p : α → Bool) (s : List α) : List α :=
  trimEnd p (s.dropWhile p)

def trimString (s : String) : String :=
  String.ofList (trimBy isBlank s.toList)

/-- The text without the blanks around it. No half is a blank. -/
def trim : Text → Text
  | plain s => trimString s
  | loose symbols _ => ofSymbols (trimBy (fun symbol => symbol.char?.any isBlank) symbols)

def isBlankText : Text → Bool
  | plain s => s.toList.all isBlank
  | loose _ _ => false

def dropTrailingString (c : Char) (s : String) : String :=
  String.ofList (trimEnd (· == c) s.toList)

def dropTrailing (c : Char) : Text → Text
  | plain s => dropTrailingString c s
  | loose symbols _ => ofSymbols (trimEnd (· == .char c) symbols)

end Switchboard.Text
