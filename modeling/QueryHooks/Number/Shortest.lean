import QueryHooks.Number.Binary64

namespace QueryHooks.Number

-- The decimal `digits * 10 ^ exponent`.
structure Decimal where
  digits   : Nat
  exponent : Int
  deriving DecidableEq, Repr

namespace Decimal

def trimZeros (digits : Nat) (exponent : Int) : Decimal :=
  if h : 0 < digits ∧ digits % 10 = 0 then trimZeros (digits / 10) (exponent + 1)
  else ⟨digits, exponent⟩
termination_by digits
decreasing_by omega

end Decimal

namespace Binary64

-- The ends of the interval that rounds to the number, over four times the denominator of its magnitude.
def roundingInterval (d : Binary64) : Nat × Nat :=
  let unit := Nat.pow 2 d.exponent.toNat
  let narrow := d.significand == Nat.pow 2 (precision - 1) && d.exponent > minExponent
  let mid := 4 * d.significand * unit
  (mid - (if narrow then unit else 2 * unit), mid + 2 * unit)

-- Does `digits * num / den` read back as the number? The interval is closed where the significand is even.
def reads (d : Binary64) (digits num den : Nat) : Bool :=
  let (low, high) := d.roundingInterval
  let point := 4 * digits * num * d.magnitude.2
  if d.significand % 2 == 0 then low * den ≤ point && point ≤ high * den
  else low * den < point && point < high * den

-- The exponent of the leading digit.
def leadingExponent (d : Binary64) : Int :=
  let (n, m) := d.magnitude
  if n ≥ m then (Nat.toDigits 10 (n / m)).length - 1
  else below n m 400
where
  below (n m : Nat) : Nat → Int
    | 0        => 0
    | fuel + 1 => if n ≥ m then 0 else below (10 * n) m fuel - 1

-- The nearest decimal with so many digits that reads back, if there is one. It is a neighbour of the number on the
-- grid of these decimals.
def decimalOf? (d : Binary64) (leading : Int) (count : Nat) : Option Decimal :=
  let exponent := leading + 1 - count
  let num := Nat.pow 10 exponent.toNat
  let den := Nat.pow 10 (-exponent).toNat
  let (n, m) := d.magnitude
  let floor := n * den / (m * num)
  let twice := 2 * (n * den % (m * num))
  let upward := twice > m * num || (twice == m * num && floor % 2 == 1)
  let first := if upward then floor + 1 else floor
  let second := if upward then floor else floor + 1
  if d.reads first num den then some ⟨first, exponent⟩
  else if d.reads second num den then some ⟨second, exponent⟩
  else none

-- The shortest decimal that reads back as the number. Seventeen digits are always enough.
def shortest (d : Binary64) : Decimal :=
  if d.isZero then ⟨0, 0⟩
  else
    let leading := d.leadingExponent
    match (List.range' 1 17).findSome? (d.decimalOf? leading) with
    | some dec => .trimZeros dec.digits dec.exponent
    | none     => ⟨0, 0⟩

-- Where decimals are written without an exponent: the point stands after `-5 < places ≤ 16` digits.
def positional (places : Int) : Bool :=
  -5 < places && places ≤ 16

def zeros (count : Int) : String :=
  .ofList (List.replicate count.toNat '0')

-- A point is written only between digits.
def scientific (digits : List Char) (exponent : Int) : String :=
  let mantissa :=
    match digits with
    | [c]     => [c]
    | c :: cs => c :: '.' :: cs
    | []      => []
  String.ofList mantissa ++ (if exponent < 0 then "e-" else "e+") ++ toString exponent.natAbs

def magnitudeText (d : Binary64) : String :=
  if d.isZero then "0.0"
  else
    let dec := d.shortest
    let digits := Nat.toDigits 10 dec.digits
    let places := digits.length + dec.exponent
    if !positional places then scientific digits (places - 1)
    else if dec.exponent ≥ 0 then String.ofList digits ++ zeros dec.exponent ++ ".0"
    else if places > 0 then String.ofList (digits.take places.toNat) ++ "." ++ String.ofList (digits.drop places.toNat)
    else "0." ++ zeros (-places) ++ String.ofList digits

def text (d : Binary64) : String :=
  (if d.negative then "-" else "") ++ d.magnitudeText

end Binary64
end QueryHooks.Number
