import DeferredAttributes.Decimal.Binary

-- Numbers from text, rounded once and correctly.
namespace DeferredAttributes.Decimal

def isDigit (c : Char) : Bool := '0' ≤ c && c ≤ '9'

def digitValue (c : Char) : Nat := c.toNat - '0'.toNat

def natOf (cs : List Char) : Nat := cs.foldl (fun total c => total * 10 + digitValue c) 0

-- Exponents far outside the range are settled without building the power.
def ofDigits (significand : Nat) (exponent : Int) : Float :=
  let leading := exponent + (Nat.toDigits 10 significand).length
  if significand = 0 then 0
  else if 400 < leading then 1 / 0
  else if leading < -400 then 0
  else Float.ofScientific significand (exponent < 0) exponent.natAbs

def ofPlain (whole fraction : List Char) : Float :=
  ofDigits (natOf (whole ++ fraction)) (-(fraction.length : Int))

inductive Fault where
  | empty
  | malformed
deriving Repr, DecidableEq

def Fault.message : Fault → String
  | .empty => "cannot parse float from empty string"
  | .malformed => "invalid float literal"

def exponent? : List Char → Option Int
  | [] => some 0
  | mark :: cs =>
    if mark != 'e' && mark != 'E' then none else
    let (negative,digits) := match cs with
      | '-' :: rest => (true,rest)
      | '+' :: rest => (false,rest)
      | _ => (false,cs)
    if digits.isEmpty || !digits.all isDigit then none
    else some (if negative then -(natOf digits : Int) else natOf digits)

def lower (c : Char) : Char := if 'A' ≤ c && c ≤ 'Z' then Char.ofNat (c.toNat + 32) else c

def unsigned? (cs : List Char) : Option Float :=
  let name := String.ofList (cs.map lower)
  if name == "inf" || name == "infinity" then some (1 / 0)
  else if name == "nan" then some (0 / 0)
  else
    let whole := cs.takeWhile isDigit
    let (fraction,rest) := match cs.dropWhile isDigit with
      | '.' :: after => (after.takeWhile isDigit,after.dropWhile isDigit)
      | after => ([],after)
    if whole.isEmpty && fraction.isEmpty then none
    else (exponent? rest).map fun e =>
      ofDigits (natOf (whole ++ fraction)) (e - (fraction.length : Int))

def read (cs : List Char) : Except Fault Float :=
  if cs.isEmpty then .error .empty else
  let value? := match cs with
    | '-' :: rest => (unsigned? rest).map fun x => -x
    | '+' :: rest => unsigned? rest
    | _ => unsigned? cs
  match value? with
  | some x => .ok x
  | none => .error .malformed

def readInt? (cs : List Char) : Option Int :=
  let (negative,digits) := match cs with
    | '-' :: rest => (true,rest)
    | '+' :: rest => (false,rest)
    | _ => (false,cs)
  if digits.isEmpty || !digits.all isDigit then none
  else some (if negative then -(natOf digits : Int) else natOf digits)

end DeferredAttributes.Decimal
