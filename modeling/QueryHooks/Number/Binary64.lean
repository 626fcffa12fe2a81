namespace QueryHooks.Number

-- The number is `significand * 2 ^ exponent`, with a sign of its own for zero.
structure Binary64 where
  negative    : Bool
  significand : Nat
  exponent    : Int
  deriving DecidableEq, Repr

namespace Binary64

def precision : Nat := 53

def minExponent : Int := -1074

def maxExponent : Int := 971

def isZero (d : Binary64) : Bool :=
  d.significand == 0

def neg (d : Binary64) : Binary64 :=
  { d with negative := !d.negative }

def zero : Binary64 where
  negative    := false
  significand := 0
  exponent    := minExponent

-- The number as a fraction, without its sign.
def magnitude (d : Binary64) : Nat × Nat :=
  (d.significand * Nat.pow 2 d.exponent.toNat, Nat.pow 2 (-d.exponent).toNat)

-- `num / den` in units of `2 ^ exponent`, rounded to the nearest whole number.
def roundUnits (num den : Nat) (exponent : Int) : Nat :=
  let n := num * Nat.pow 2 (-exponent).toNat
  let d := den * Nat.pow 2 exponent.toNat
  let floor := n / d
  let twice := 2 * (n % d)
  if twice > d || (twice == d && floor % 2 == 1) then floor + 1 else floor

-- The exponent at which `num / den` has as many bits as the format keeps, or the least exponent if that is larger.
def unitExponent (num den : Nat) : Int :=
  let estimate : Int := num.log2 - den.log2 - precision
  let n := num * Nat.pow 2 (-estimate).toNat
  let d := den * Nat.pow 2 estimate.toNat
  max minExponent (if n / d ≥ Nat.pow 2 precision then estimate + 1 else estimate)

-- The nearest number to `num / den`, if that is not beyond the largest one.
def ofFraction? (num den : Nat) : Option Binary64 :=
  if num = 0 then some zero
  else
    let exponent := unitExponent num den
    let units := roundUnits num den exponent
    let (units, exponent) :=
      if units = Nat.pow 2 precision then (Nat.pow 2 (precision - 1), exponent + 1) else (units, exponent)
    if exponent > maxExponent then none
    else some { negative := false, significand := units, exponent }

-- The nearest number to `digits * 10 ^ exponent`.
def ofDecimal? (digits : Nat) (exponent : Int) : Option Binary64 :=
  -- The number has this many digits before the point. Far out, the answer does not depend on the digits.
  let places : Int := (Nat.toDigits 10 digits).length + exponent
  if digits = 0 || places < -400 then some zero
  else if places > 400 then none
  else ofFraction? (digits * Nat.pow 10 exponent.toNat) (Nat.pow 10 (-exponent).toNat)

-- The largest power of ten below all bounds of the format.
def maxPower : Nat := 308

def tenPower (n : Nat) : Binary64 :=
  (ofFraction? (Nat.pow 10 n) 1).getD zero

def mul? (d e : Binary64) : Option Binary64 :=
  let (n, m) := d.magnitude
  let (n', m') := e.magnitude
  ofFraction? (n * n') (m * m')

def div? (d e : Binary64) : Option Binary64 :=
  let (n, m) := d.magnitude
  let (n', m') := e.magnitude
  ofFraction? (n * m') (m * n')

def divPower (d : Binary64) (n : Nat) : Binary64 :=
  if n ≤ maxPower then (d.div? (tenPower n)).getD zero
  else if d.isZero then d
  else divPower ((d.div? (tenPower maxPower)).getD zero) (n - maxPower)
termination_by n
decreasing_by simp_all [maxPower]; omega

-- The significand rounded, then multiplied or divided by the rounded power of ten, and rounded again.
def scaled? (significand : Nat) (exponent : Int) : Option Binary64 := do
  let d ← ofFraction? significand 1
  if exponent < 0 then
    some (d.divPower (-exponent).toNat)
  else if exponent.toNat ≤ maxPower then
    d.mul? (tenPower exponent.toNat)
  else if d.isZero then
    some d
  else
    none

end Binary64
end QueryHooks.Number
