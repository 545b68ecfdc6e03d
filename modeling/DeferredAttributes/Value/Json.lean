import DeferredAttributes.Value.Basic
import DeferredAttributes.Text.Quoted

-- Values as JSON, and as the text that messages show.
namespace DeferredAttributes
open Text

-- JSON knows neither infinity nor NaN.
def jsonNumbers : Decimal.Layout :=
  { positional := some (-5,15), pointZero := true, plus := true, tie := .even
    nan := "null", infinity := "null", negativeInfinity := "null" }

namespace Value

def json : Value → String
  | .boolean b => if b then "true" else "false"
  | .integer n => toString n
  | .decimal x => jsonNumbers.text x
  | .string s => jsonString s
  | .object entries => "\x7b" ++ ",".intercalate (fields entries) ++ "\x7d"
where
  fields : List (String × Value) → List String
    | [] => []
    | (name,value) :: rest => (jsonString name ++ ":" ++ json value) :: fields rest

def indentation (depth : Nat) : String := String.ofList (List.replicate (2 * depth) ' ')

def prettyJson (depth : Nat) : Value → String
  | .boolean b => if b then "true" else "false"
  | .integer n => toString n
  | .decimal x => jsonNumbers.text x
  | .string s => jsonString s
  | .object entries =>
    if entries.isEmpty then "\x7b\x7d" else
    "\x7b\n" ++ ",\n".intercalate (fields (depth + 1) entries) ++ "\n" ++ indentation depth ++ "\x7d"
where
  fields (depth : Nat) : List (String × Value) → List String
    | [] => []
    | (name,value) :: rest =>
      (indentation depth ++ jsonString name ++ ": " ++ prettyJson depth value) :: fields depth rest

def text : Value → String
  | .boolean b => if b then "true" else "false"
  | .integer n => toString n
  | .decimal x => Decimal.text x
  | .string s => quoted s
  | .object entries => json (.object entries)

end Value
end DeferredAttributes
