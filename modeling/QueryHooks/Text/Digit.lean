namespace QueryHooks.Text

-- The value of a digit in bases up to sixteen.
def digit? (c : Char) : Option Nat :=
  if c.isDigit then some (c.toNat - 48)
  else if 'a' ≤ c && c ≤ 'f' then some (c.toNat - 87)
  else if 'A' ≤ c && c ≤ 'F' then some (c.toNat - 55)
  else none

def digitOf? (base : Nat) (c : Char) : Option Nat :=
  (digit? c).filter (· < base)

-- The number that the digits stand for.
def number? (base : Nat) (cs : List Char) : Option Nat :=
  cs.foldlM (fun n c => (digitOf? base c).map (base * n + ·)) 0

-- The character with a code that is written in hexadecimal digits.
def charOfHex? (cs : List Char) : Option Char :=
  (number? 16 cs).bind fun n => if n.isValidChar then some (.ofNat n) else none

end QueryHooks.Text
