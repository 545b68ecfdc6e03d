import DeferredAttributes.Decimal.Shortest

-- How digits and exponent are written down, as a record that each format fills in.
namespace DeferredAttributes.Decimal

-- How a format writes its numbers. `positional` holds the exponents of the leading
-- digit that are written without an exponent; none means all of them.
structure Layout where
  positional : Option (Int × Int)
  pointZero : Bool
  plus : Bool
  tie : Tie
  nan : String
  infinity : String
  negativeInfinity : String

def zeros (n : Nat) : String := String.ofList (List.replicate n '0')

def Digits.positional (pointZero : Bool) (d : Digits) : String :=
  let text := toString d.significand
  if 0 ≤ d.exponent then
    text ++ zeros d.exponent.toNat ++ if pointZero then ".0" else ""
  else
    let places := (-d.exponent).toNat
    let cs := text.toList
    if places < cs.length then
      String.ofList (cs.take (cs.length - places)) ++ "." ++ String.ofList (cs.drop (cs.length - places))
    else "0." ++ zeros (places - cs.length) ++ text

def Digits.scientific (plus : Bool) (d : Digits) : String :=
  let cs := (toString d.significand).toList
  let exponent := d.exponent + (cs.length - 1 : Nat)
  let fraction := cs.drop 1
  String.ofList (cs.take 1) ++ (if fraction.isEmpty then "" else "." ++ String.ofList fraction) ++
    (if exponent < 0 then "e" else if plus then "e+" else "e") ++ toString exponent

def Layout.digits (layout : Layout) (d : Digits) : String :=
  let leading := d.exponent + ((toString d.significand).length - 1 : Nat)
  match layout.positional with
  | none => d.positional layout.pointZero
  | some (lowest,highest) =>
    if d.significand = 0 ∨ (lowest ≤ leading ∧ leading ≤ highest) then d.positional layout.pointZero
    else d.scientific layout.plus

def Layout.text (layout : Layout) (x : Float) : String :=
  match Binary.ofFloat x with
  | .nan => layout.nan
  | .infinite negative => if negative then layout.negativeInfinity else layout.infinity
  | .finite negative mantissa exponent narrow =>
    (if negative then "-" else "") ++ layout.digits (shortest layout.tie mantissa exponent narrow)

def inMessages : Layout :=
  { positional := none, pointZero := false, plus := false, tie := .up
    nan := "NaN", infinity := "inf", negativeInfinity := "-inf" }

def text (x : Float) : String := inMessages.text x

end DeferredAttributes.Decimal
