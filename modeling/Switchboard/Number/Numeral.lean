import Switchboard.Number.Binary64
import Switchboard.Text.Blank
import Switchboard.Text.DecimalDigit
/-! # Numbers in text

Numbers are read from text by two rules. The free rule takes the decimal digits of every script, any
blanks around the number, and single underscores between two digits. The strict rule takes ASCII digits
and white space; it leaves single underscores out wherever they stand inside the text.
-/
namespace Switchboard.Numeral

open Switchboard.Text

def isDigit (c : Char) : Bool :=
  '0' ≤ c && c ≤ '9'

def valueOf (digits : List Char) : Nat :=
  digits.foldl (fun n c => n * 10 + (c.toNat - 48)) 0

/-- The text without its underscores, if each one stands between two digits. `before` tells whether the
character before the text is a digit. -/
def dropUnderscores? (before : Bool) : List Char → Option (List Char)
  | [] => some []
  | c :: rest =>
    if c = '_' then
      if before && (rest.head?.map isDigit).getD false then dropUnderscores? false rest else none
    else (dropUnderscores? (isDigit c) rest).map (c :: ·)

def splitSign : List Char → Bool × List Char
  | '-' :: rest => (true, rest)
  | '+' :: rest => (false, rest)
  | s => (false, s)

def integer? (s : List Char) : Option Int :=
  let (negative, digits) := splitSign s
  if digits.isEmpty || !digits.all isDigit then none
  else some (Binary64.signed negative (valueOf digits))

def exponent? : List Char → Option Int
  | [] => some 0
  | c :: rest => if c = 'e' || c = 'E' then integer? rest else none

/-- The number written with an optional sign, digits with at most one point, and an optional exponent; or
one of the words for infinity and for no number. -/
def decimal? (s : List Char) : Option Binary64 :=
  let (negative, s) := splitSign s
  let word := String.ofList (s.map Char.toLower)
  if word == "inf" || word == "infinity" then some (.infinite negative)
  else if word == "nan" then some .nan
  else
    let whole := s.takeWhile isDigit
    let rest := s.dropWhile isDigit
    let fraction := if rest.head? == some '.' then (rest.drop 1).takeWhile isDigit else []
    let rest := if rest.head? == some '.' then (rest.drop 1).dropWhile isDigit else rest
    if whole.isEmpty && fraction.isEmpty then none
    else (exponent? rest).map fun e =>
      Binary64.ofDecimal negative (valueOf (whole ++ fraction)) (e - fraction.length)

/-- The ASCII form of a text: blanks become spaces and decimal digits ASCII digits. A text of ASCII
characters only is left alone, and a text with any other character has none. -/
def asciiForm? (s : List Char) : Option (List Char) :=
  if s.all fun c => c.toNat < 128 then some s
  else s.mapM fun c =>
    if c.toNat < 127 then some c
    else if isBlank c then some ' '
    else (digitValue? c).map fun d => Char.ofNat (48 + d)

def freeForm? (s : String) : Option (List Char) :=
  (asciiForm? s.toList).bind fun s => dropUnderscores? false (trimBy isAsciiBlank s)

def mostDigits : Nat := 4300

def leastOversized : Nat := Nat.pow 10 mostDigits

/-- The text of an integer, unless it has too many digits. -/
def text? (n : Int) : Option String :=
  if n.natAbs < leastOversized then some (toString n) else none

def readDecimal? (s : String) : Option Binary64 :=
  (freeForm? s).bind decimal?

def readInteger? (s : String) : Option Int :=
  (freeForm? s).bind fun s => if (s.filter isDigit).length ≤ mostDigits then integer? s else none

def joined? (s : List Char) : Option (List Char) :=
  let doubled := (s.zip s.tail).any fun pair => pair.1 == '_' && pair.2 == '_'
  if s.contains '_' && s.head? != some '_' && s.getLast? != some '_' && !doubled then
    some (s.filter (· != '_'))
  else none

/-- The number that a text holds by the strict rule. It may have white space around it or underscores in
it, but not both. -/
def strictDecimal? (s : String) : Option Binary64 :=
  (decimal? (trimBy isWhiteSpace s.toList)).or ((joined? s.toList).bind decimal?)

inductive Unread where
  | malformed
  | tooLong
deriving DecidableEq, Repr

def plainInteger (s : List Char) : Except Unread Int :=
  let negative := s.head? == some '-'
  let unsigned := if negative then s.drop 1 else s
  let digits := unsigned.takeWhile isDigit
  if digits.head? == some '0' then if unsigned = ['0'] then .ok 0 else .error .malformed
  else if digits.isEmpty then .error .malformed
  else if mostDigits < digits.length + (if negative then 1 else 0) then .error .tooLong
  else if digits.length < unsigned.length then .error .malformed
  else .ok (Binary64.signed negative (valueOf digits))

def startsInteger (c : Char) : Bool :=
  ('1' ≤ c && c ≤ '9') || c = '-'

/-- The text without the zeros at its front, and without the underscores among them; one character is
kept when nothing or a point follows. -/
def dropZeros? : List Char → Option (List Char)
  | '0' :: rest =>
    let isFiller (c : Char) : Bool := c = '0' || c = '_'
    let last := ('0' :: rest.takeWhile isFiller).getLast (List.cons_ne_nil _ _)
    match rest.dropWhile isFiller with
    | [] => some [last]
    | c :: tail =>
      if c = '.' then some (last :: c :: tail)
      else if startsInteger c then some (c :: tail)
      else none
  | c :: rest => if startsInteger c then some (c :: rest) else none
  | [] => none

def dropZeroFraction (s : List Char) : List Char :=
  let whole := s.takeWhile (· != '.')
  let fraction := s.drop (whole.length + 1)
  if !fraction.isEmpty && fraction.all (· == '0') then whole else s

def plainForm? (s : List Char) : Option (List Char) :=
  let s := trimBy isWhiteSpace s
  let unsigned := if s.head? == some '+' then s.drop 1 else s
  if s.head? == some '+' && unsigned.head? == some '-' then none
  else (dropZeros? unsigned).map fun s =>
    let whole := dropZeroFraction s
    (joined? whole).getD whole

def strictInteger (s : String) : Except Unread Int :=
  match plainInteger s.toList, plainForm? s.toList with
  | .error .malformed, some form => plainInteger form
  | read, _ => read

end Switchboard.Numeral
