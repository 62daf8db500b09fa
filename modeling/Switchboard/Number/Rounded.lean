import Switchboard.Number.Shortest
/-! # Decimals of a fixed length

A number is rounded to a decimal with a count of digits that is given; a half goes up.
-/
namespace Switchboard.Binary64

/-- The decimal with a count of digits that is nearest to the positive number `m * 2 ^ e`, without zeros at
its end. -/
def rounded (count m : Nat) (e : Int) : Decimal :=
  let place := leadingPlace (m * power 2 e) (power 2 (-e)) - count
  let num := m * power 2 e * power 10 (-place)
  let den := power 2 (-e) * power 10 place
  Decimal.dropZeros (count + 1) { digits := (2 * num + den) / (2 * den), exponent := place }

end Switchboard.Binary64
