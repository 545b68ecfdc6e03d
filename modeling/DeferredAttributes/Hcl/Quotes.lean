import DeferredAttributes.Decimal.Reading
import DeferredAttributes.Text.Quoted

-- Text between quotes: what its escapes stand for, and how it is written again.
namespace DeferredAttributes.Hcl
open Decimal Text

def hexDigit? (c : Char) : Option Nat :=
  if isDigit c then some (digitValue c)
  else if 'a' ≤ c && c ≤ 'f' then some (c.toNat - 'a'.toNat + 10)
  else if 'A' ≤ c && c ≤ 'F' then some (c.toNat - 'A'.toNat + 10)
  else none

def character? (digits : List Char) : Option Char := do
  let n ← digits.foldlM (fun total c => (hexDigit? c).map (total * 16 + ·)) 0
  if n.isValidChar then some (Char.ofNat n) else none

def escape? (c : Char) : Option Char :=
  if c == 'n' then some '\n' else if c == 'r' then some '\r' else if c == 't' then some '\t'
  else if c == '"' || c == '\\' then some c else none

-- A mark for an insertion that is doubled is text.
def literal : List Char → Option (List Char × List Char)
  | [] => none
  | '"' :: rest => some ([],'"' :: rest)
  | '$' :: '$' :: '\x7b' :: rest => (literal rest).map fun (cs,rest) => ('$' :: '\x7b' :: cs,rest)
  | '%' :: '%' :: '\x7b' :: rest => (literal rest).map fun (cs,rest) => ('%' :: '\x7b' :: cs,rest)
  | '$' :: '\x7b' :: rest => some ([],'$' :: '\x7b' :: rest)
  | '%' :: '\x7b' :: rest => some ([],'%' :: '\x7b' :: rest)
  | '\\' :: 'u' :: a :: b :: c :: d :: rest => do
    let char ← character? [a,b,c,d]
    (literal rest).map fun (cs,rest) => (char :: cs,rest)
  | '\\' :: 'U' :: a :: b :: c :: d :: e :: f :: g :: h :: rest => do
    let char ← character? [a,b,c,d,e,f,g,h]
    (literal rest).map fun (cs,rest) => (char :: cs,rest)
  | '\\' :: c :: rest => do
    let char ← escape? c
    (literal rest).map fun (cs,rest) => (char :: cs,rest)
  | c :: rest => if c == '\\' then none else (literal rest).map fun (cs,rest) => (c :: cs,rest)

def doubled : List Char → List Char
  | [] => []
  | '$' :: '\x7b' :: rest => '$' :: '$' :: '\x7b' :: doubled rest
  | '%' :: '\x7b' :: rest => '%' :: '%' :: '\x7b' :: doubled rest
  | c :: rest => c :: doubled rest

def escaped (s : String) : String := String.join ((doubled s.toList).map jsonChar)

end DeferredAttributes.Hcl
