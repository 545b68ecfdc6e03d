import DeferredAttributes.Decimal.Layout
import DeferredAttributes.Decimal.Reading

-- The numbers of documents. One that is whole and fits into 64 bits is exact, however it
-- is spelled.
namespace DeferredAttributes.Hcl
open Decimal

inductive Number where
  | whole (n : Int)
  | real (x : Float)
deriving Repr

def wholeOf? (x : Float) : Option Nat :=
  match Binary.ofFloat x with
  | .finite false mantissa exponent _ =>
    if 0 ≤ exponent then some (mantissa * Nat.pow 2 exponent.toNat)
    else if mantissa % Nat.pow 2 (-exponent).toNat = 0 then some (mantissa / Nat.pow 2 (-exponent).toNat)
    else none
  | _ => none

def largestWhole : Nat := Nat.pow 2 64 - 1

-- The first number above the range is the nearest one to its end and counts as that.
def Number.ofFloat (x : Float) : Number :=
  match wholeOf? x with
  | some n => if n ≤ largestWhole + 1 then .whole (min n largestWhole) else .real x
  | none => .real x

-- With a sign in front the range ends earlier; beyond it a number is rounded.
def Number.negated : Number → Number
  | .whole n => if n ≤ Nat.pow 2 63 then .whole (-n) else .real (-(ofDigits n.toNat 0))
  | .real x => .real (-x)

def Number.same : Number → Number → Bool
  | .whole n, .whole m => n == m
  | .real x, .real y => x == y
  | _, _ => false

def numbers : Decimal.Layout :=
  { positional := some (-5,15), pointZero := true, plus := false, tie := .even
    nan := "nan", infinity := "inf", negativeInfinity := "-inf" }

def Number.written : Number → String
  | .whole n => toString n
  | .real x => numbers.text x

def Number.text : Number → String
  | .whole n => toString n
  | .real x => Decimal.text x

end DeferredAttributes.Hcl
