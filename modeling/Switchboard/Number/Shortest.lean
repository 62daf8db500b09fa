import Switchboard.Number.Binary64
/-! # The shortest decimal text of a number

A number is written with the fewest decimal digits that read back as the same number; of two such
decimals the nearer one is taken, and of two equally near ones the one with an even last digit. The
point is written in place for magnitudes from `10 ^ -4` up to `10 ^ 16`, otherwise an exponent is used.
-/
namespace Switchboard.Binary64

structure Decimal where
  digits : Nat
  exponent : Int
deriving DecidableEq, Repr

/-- The place `p` for which the positive number `num / den` is below `10 ^ p` and at least a tenth of it. -/
def leadingPlace (num den : Nat) : Int :=
  let whole := num / den
  if whole = 0 then 1 - (Nat.toDigits 10 (den / num)).length
  else (Nat.toDigits 10 whole).length

def Decimal.dropZeros : Nat → Decimal → Decimal
  | 0, d => d
  | fuel + 1, d =>
    if d.digits ≠ 0 ∧ d.digits % 10 = 0 then
      dropZeros fuel { digits := d.digits / 10, exponent := d.exponent + 1 }
    else d

/-- The better of the two neighbours of `m * 2 ^ e` on the grid of multiples of `10 ^ place`, among
those that read back as the number. -/
def gridNeighbour? (m : Nat) (e place : Int) : Option Decimal :=
  let num := m * power 2 e * power 10 (-place)
  let den := power 2 (-e) * power 10 place
  let low := num / den
  let readsBack (k : Nat) : Bool := ofDecimal false k place == .finite false m e
  let lowFirst := nearestQuotient num den == low
  let first := if lowFirst then low else low + 1
  let second := if lowFirst then low + 1 else low
  if readsBack first then some { digits := first, exponent := place }
  else if readsBack second then some { digits := second, exponent := place }
  else none

def shortest (m : Nat) (e : Int) : Decimal :=
  let lead := leadingPlace (m * power 2 e) (power 2 (-e))
  let found := (List.range 17).findSome? fun (k : Nat) => gridNeighbour? m e (lead - (k + 1 : Nat))
  (found.getD { digits := m, exponent := e }).dropZeros 400

def exponentText (e : Int) : String :=
  let digits := toString e.natAbs
  (if e < 0 then "-" else "+") ++ (if digits.length < 2 then "0" ++ digits else digits)

structure Style where
  wholeDigits : Int := 16
  loneFraction : String := ""
deriving DecidableEq, Repr

def Decimal.text (d : Decimal) (style : Style := {}) : String :=
  let digits := Nat.toDigits 10 d.digits
  let point : Int := digits.length + d.exponent
  if -4 < point ∧ point ≤ style.wholeDigits then
    if point ≤ 0 then
      "0." ++ String.ofList (List.replicate (-point).toNat '0' ++ digits)
    else if d.exponent < 0 then
      String.ofList (digits.take point.toNat) ++ "." ++ String.ofList (digits.drop point.toNat)
    else
      String.ofList (digits ++ List.replicate d.exponent.toNat '0') ++ ".0"
  else
    let rest := if digits.length ≤ 1 then style.loneFraction else "." ++ String.ofList (digits.drop 1)
    String.ofList (digits.take 1) ++ rest ++ "e" ++ exponentText (point - 1)

def text : Binary64 → String
  | nan => "nan"
  | infinite s => if s then "-inf" else "inf"
  | finite s m e =>
    let magnitude := if m = 0 then "0.0" else (shortest m e).text
    if s then "-" ++ magnitude else magnitude

end Switchboard.Binary64
