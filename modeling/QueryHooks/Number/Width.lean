namespace QueryHooks.Number

-- The first number that needs more bits.
def limit (bits : Nat) : Nat :=
  Nat.pow 2 bits

def fitsSigned (bits : Nat) (i : Int) : Bool :=
  -(limit (bits - 1) : Int) ≤ i && i < limit (bits - 1)

def fitsUnsigned (bits : Nat) (i : Int) : Bool :=
  0 ≤ i && i < limit bits

def fits (bits : Nat) (i : Int) : Bool :=
  fitsSigned bits i || fitsUnsigned bits i

end QueryHooks.Number
