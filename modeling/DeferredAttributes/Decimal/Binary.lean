-- Double-precision numbers as mantissa and exponent.
namespace DeferredAttributes.Decimal

-- A finite number is ± mantissa · 2^exponent. `narrow` marks the smallest mantissa of a
-- binade, whose lower neighbour is only half as far away as its upper one.
inductive Binary where
  | nan
  | infinite (negative : Bool)
  | finite (negative : Bool) (mantissa : Nat) (exponent : Int) (narrow : Bool)
deriving Repr, DecidableEq

def Binary.ofBits (bits : Nat) : Binary :=
  let negative := bits / Nat.pow 2 63 % 2 == 1
  let biased : Nat := bits / Nat.pow 2 52 % Nat.pow 2 11
  let fraction := bits % Nat.pow 2 52
  if biased = 2047 then
    if fraction = 0 then .infinite negative else .nan
  else if biased = 0 then .finite negative fraction (-1074) false
  else .finite negative (Nat.pow 2 52 + fraction) ((biased : Int) - 1075) (fraction == 0 && biased > 1)

def Binary.ofFloat (x : Float) : Binary := .ofBits x.toBits.toNat

def roundHalfUp (mantissa : Nat) (exponent : Int) : Nat :=
  if 0 ≤ exponent then mantissa * Nat.pow 2 exponent.toNat
  else
    let unit := Nat.pow 2 (-exponent).toNat
    (2 * mantissa + unit) / (2 * unit)

-- Nearest integer to a finite number; a half goes away from zero.
def nearestInt? (x : Float) : Option Int :=
  match Binary.ofFloat x with
  | .finite negative mantissa exponent _ =>
    let size := roundHalfUp mantissa exponent
    some (if negative then -(size : Int) else size)
  | _ => none

end DeferredAttributes.Decimal
