/-! # Double-precision numbers

A finite number is a sign, a mantissa below `2 ^ 53` and an exponent of two; its value is
`± mantissa * 2 ^ exponent`. All arithmetic is exact on integers and is rounded once, to the nearest
number that can be represented, a half going to the even mantissa.
-/
namespace Switchboard

/-- A double-precision number. Zero has mantissa zero and the least exponent. -/
inductive Binary64 where
  | nan
  | infinite (negative : Bool)
  | finite (negative : Bool) (mantissa : Nat) (exponent : Int)
deriving DecidableEq, Repr, Inhabited

namespace Binary64

def minExponent : Int := -1074

def maxExponent : Int := 971

def power (base : Nat) (exponent : Int) : Nat :=
  Nat.pow base exponent.toNat

def zero (negative : Bool) : Binary64 :=
  .finite negative 0 minExponent

/-- The quotient of two natural numbers, rounded to the nearest, a half to the even neighbour. -/
def nearestQuotient (num den : Nat) : Nat :=
  let quotient := num / den
  let twice := 2 * (num % den)
  if twice < den || (twice == den && quotient % 2 == 0) then quotient else quotient + 1

/-- The exponent with which the mantissa of `num / den` has 53 digits, or the least exponent. -/
def exponentOf (num den : Nat) : Int :=
  let guess : Int := (num.log2 : Int) - den.log2 - 52
  let small := num * power 2 (-guess) / (den * power 2 guess) < power 2 52
  max minExponent (if small then guess - 1 else guess)

def ofRatio (negative : Bool) (num den : Nat) : Binary64 :=
  if num = 0 then zero negative
  else
    let e := exponentOf num den
    let m := nearestQuotient (num * power 2 (-e)) (den * power 2 e)
    let carried := m == power 2 53
    let m := if carried then power 2 52 else m
    let e := if carried then e + 1 else e
    if maxExponent < e then .infinite negative else .finite negative m e

def ofScaled (k e : Int) : Binary64 :=
  ofRatio (k < 0) (k.natAbs * power 2 e) (power 2 (-e))

def ofInt (k : Int) : Binary64 :=
  ofScaled k 0

def ofInt? (k : Int) : Option Binary64 :=
  match ofInt k with
  | .infinite _ => none
  | x => some x

/-- The number nearest to `± digits * 10 ^ exponent`. Exponents far out of range are cut off first. -/
def ofDecimal (negative : Bool) (digits : Nat) (exponent : Int) : Binary64 :=
  let magnitude : Int := (Nat.toDigits 10 digits).length + exponent
  if digits = 0 || magnitude < -400 then zero negative
  else if 400 < magnitude then .infinite negative
  else ofRatio negative (digits * power 10 exponent) (power 10 (-exponent))

def signed (negative : Bool) (n : Nat) : Int :=
  if negative then -n else n

def neg : Binary64 → Binary64
  | nan => nan
  | infinite s => infinite !s
  | finite s m e => finite (!s) m e

/-- The sum of two numbers, rounded. An exact zero is positive unless both numbers are negative. -/
def add : Binary64 → Binary64 → Binary64
  | finite s m e, finite t n f =>
    let low := min e f
    let sum := signed s (m * power 2 (e - low)) + signed t (n * power 2 (f - low))
    if sum = 0 then zero (s && t) else ofScaled sum low
  | infinite s, infinite t => if s = t then infinite s else nan
  | infinite s, finite .. => infinite s
  | finite .., infinite t => infinite t
  | nan, _ => nan
  | _, nan => nan

def sub (x y : Binary64) : Binary64 :=
  add x y.neg

def mul : Binary64 → Binary64 → Binary64
  | finite s m e, finite t n f =>
    let k := m * n
    if k = 0 then zero (s != t) else ofScaled (signed (s != t) k) (e + f)
  | infinite s, infinite t => infinite (s != t)
  | infinite s, finite t n _ => if n = 0 then nan else infinite (s != t)
  | finite s m _, infinite t => if m = 0 then nan else infinite (s != t)
  | nan, _ => nan
  | _, nan => nan

def lt : Binary64 → Binary64 → Bool
  | finite s m e, finite t n f =>
    let low := min e f
    signed s (m * power 2 (e - low)) < signed t (n * power 2 (f - low))
  | infinite s, infinite t => s && !t
  | infinite s, finite .. => s
  | finite .., infinite t => !t
  | nan, _ => false
  | _, nan => false

def same : Binary64 → Binary64 → Bool
  | finite s m e, finite t n f =>
    let low := min e f
    signed s (m * power 2 (e - low)) == signed t (n * power 2 (f - low))
  | infinite s, infinite t => s == t
  | _, _ => false

def isInt (x : Binary64) (k : Int) : Bool :=
  match x with
  | finite s m e => signed s (m * power 2 e) == k * power 2 (-e)
  | _ => false

def isZero : Binary64 → Bool
  | finite _ m _ => m == 0
  | _ => false

def isFinite : Binary64 → Bool
  | finite .. => true
  | _ => false

def isInteger : Binary64 → Bool
  | finite _ m e => m % power 2 (-e) == 0
  | _ => false

def truncate? : Binary64 → Option Int
  | finite s m e => some (signed s (m * power 2 e / power 2 (-e)))
  | _ => none

def nearestInt? : Binary64 → Option Int
  | finite s m e => some (signed s (nearestQuotient (m * power 2 e) (power 2 (-e))))
  | _ => none

/-- The greatest integer below a finite number divided by a positive integer, and what the number has more
than that many times the integer. -/
def floorDivide? (x : Binary64) (n : Nat) : Option (Int × Binary64) :=
  match x with
  | finite s m e =>
    let num := signed s (m * power 2 e)
    let den : Int := power 2 (-e)
    let quotient := num.fdiv (den * n)
    some (quotient, if quotient * n * den = num then zero false else ofScaled (num - quotient * n * den) (min e 0))
  | _ => none

instance : Add Binary64 := ⟨add⟩
instance : Sub Binary64 := ⟨sub⟩
instance : Mul Binary64 := ⟨mul⟩
instance : Neg Binary64 := ⟨neg⟩
instance : LT Binary64 := ⟨fun x y => lt x y = true⟩
instance (x y : Binary64) : Decidable (x < y) := inferInstanceAs (Decidable (lt x y = true))
instance : IntCast Binary64 := ⟨ofInt⟩

end Binary64
end Switchboard
