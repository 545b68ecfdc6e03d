import DeferredAttributes.Decimal.Binary

-- The fewest digits that read back as a given number, by exact arithmetic on naturals.
namespace DeferredAttributes.Decimal

-- No zero ends the significand.
structure Digits where
  significand : Nat
  exponent : Int
deriving Repr, DecidableEq

inductive Tie where
  | up
  | even
deriving Repr, DecidableEq

-- A positive rational and the open or closed interval around it whose members
-- all round to the same double-precision number. Everything is over one denominator.
structure Neighbourhood where
  low : Nat
  value : Nat
  high : Nat
  closed : Bool
  denominator : Nat

-- Quarter units of the last binary place reach every midpoint between neighbours.
-- The ends belong to the interval when the mantissa is even.
def Neighbourhood.of (mantissa : Nat) (exponent : Int) (narrow : Bool) : Neighbourhood :=
  let quarter := exponent - 2
  let scale := Nat.pow 2 quarter.toNat
  { low := (4 * mantissa - if narrow then 1 else 2) * scale
    value := 4 * mantissa * scale
    high := (4 * mantissa + 2) * scale
    closed := mantissa % 2 == 0
    denominator := Nat.pow 2 (-quarter).toNat }

def Neighbourhood.contains (n : Neighbourhood) (candidate : Nat) (place : Int) : Bool :=
  let point := candidate * Nat.pow 10 place.toNat * n.denominator
  let unit := Nat.pow 10 (-place).toNat
  if n.closed then n.low * unit ≤ point && point ≤ n.high * unit
  else n.low * unit < point && point < n.high * unit

def leadingPlace (numerator denominator : Nat) : Int :=
  let guess : Int := (Nat.toDigits 10 numerator).length - (Nat.toDigits 10 denominator).length
  if denominator * Nat.pow 10 guess.toNat ≤ numerator * Nat.pow 10 (-guess).toNat then guess else guess - 1

def Neighbourhood.onGrid? (n : Neighbourhood) (tie : Tie) (place : Int) : Option Nat :=
  let top := n.value * Nat.pow 10 (-place).toNat
  let unit := n.denominator * Nat.pow 10 place.toNat
  let below := top / unit
  let rest := top % unit
  let above := below + 1
  match n.contains below place && below != 0, n.contains above place with
  | false, false => none
  | true, false => some below
  | false, true => some above
  | true, true =>
    if 2 * rest < unit then some below
    else if unit < 2 * rest then some above
    else match tie with
      | .up => some above
      | .even => some (if below % 2 == 0 then below else above)

def strip : Nat → Nat → Int → Digits
  | 0, significand, place => ⟨significand,place⟩
  | left + 1, significand, place =>
    if significand % 10 = 0 then strip left (significand / 10) (place + 1) else ⟨significand,place⟩

-- Grids are tried from coarse to fine, so the first hit has the fewest digits.
-- Seventeen digits always tell two doubles apart.
def Neighbourhood.firstGrid (n : Neighbourhood) (tie : Tie) : Nat → Int → Digits
  | 0, place => ⟨n.value * Nat.pow 10 (-place).toNat / (n.denominator * Nat.pow 10 place.toNat),place⟩
  | left + 1, place =>
    match n.onGrid? tie place with
    | some significand => strip 18 significand place
    | none => n.firstGrid tie left (place - 1)

def shortest (tie : Tie) (mantissa : Nat) (exponent : Int) (narrow : Bool) : Digits :=
  if mantissa = 0 then ⟨0,0⟩ else
  let n := Neighbourhood.of mantissa exponent narrow
  n.firstGrid tie 17 (leadingPlace n.value n.denominator)

end DeferredAttributes.Decimal
