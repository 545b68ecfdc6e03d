import DeferredAttributes.Table
import DeferredAttributes.Text.Blank
import DeferredAttributes.Decimal.Layout
import DeferredAttributes.Decimal.Reading

-- Values, their types, and the ways between values, numbers and literals.
namespace DeferredAttributes
open Text

inductive ValueType where
  | boolean
  | integer
  | decimal
  | string
deriving Repr, DecidableEq

-- Objects only come up when a tree is rendered: no attribute is declared as one.
inductive Value where
  | boolean (b : Bool)
  | integer (n : Int)
  | decimal (x : Float)
  | string (s : String)
  | object (entries : List (String × Value))

namespace ValueType

def name : ValueType → String
  | .boolean => "boolean"
  | .integer => "integer"
  | .decimal => "decimal"
  | .string => "string"

def ofName? : String → Option ValueType
  | "boolean" | "bool" => some .boolean
  | "integer" | "int" => some .integer
  | "decimal" | "number" => some .decimal
  | "string" => some .string
  | _ => none

def isNumeric : ValueType → Bool
  | .string => false
  | _ => true

end ValueType

inductive ConversionError where
  | invalidLiteral (type : ValueType) (raw : String)
  | outOfRange (number : Float)
  | notNumeric (type : ValueType)
  | unknownType (name : String)
  | mismatch (expected : ValueType) (found : String)

def ConversionError.message : ConversionError → String
  | .invalidLiteral type raw => "'" ++ raw ++ "' is not a valid " ++ type.name
  | .outOfRange number => Decimal.text number ++ " does not fit into an integer"
  | .notNumeric type => "expressions cannot produce a " ++ type.name
  | .unknownType name => "unknown type '" ++ name ++ "'"
  | .mismatch expected found => "expected " ++ expected.name ++ ", found " ++ found

def fits (n : Int) : Bool := -9223372036854775808 ≤ n && n ≤ 9223372036854775807

namespace ValueType

def parse (text : String) : Except ConversionError ValueType :=
  match ofName? text with
  | some type => .ok type
  | none => .error (.unknownType text)

def fromNumber (type : ValueType) (number : Float) : Except ConversionError Value :=
  match type with
  | .decimal => .ok (.decimal number)
  | .boolean => .ok (.boolean (number != 0))
  | .integer =>
    match Decimal.nearestInt? number with
    | some n => if fits n then .ok (.integer n) else .error (.outOfRange number)
    | none => .error (.outOfRange number)
  | .string => .error (.notNumeric .string)

-- Blanks around a literal do not matter, except that a string is the text itself.
def parseLiteral (type : ValueType) (raw : String) : Except ConversionError Value :=
  let trimmed := trim raw.toList
  let invalid : Except ConversionError Value := .error (.invalidLiteral type raw)
  match type with
  | .string => .ok (.string raw)
  | .boolean =>
    if trimmed = "true".toList then .ok (.boolean true)
    else if trimmed = "false".toList then .ok (.boolean false) else invalid
  | .integer =>
    match Decimal.readInt? trimmed with
    | some n => if fits n then .ok (.integer n) else invalid
    | none => invalid
  | .decimal =>
    match Decimal.read trimmed with
    | .ok x => .ok (.decimal x)
    | .error _ => invalid

end ValueType

namespace Value

def type? : Value → Option ValueType
  | .boolean _ => some .boolean
  | .integer _ => some .integer
  | .decimal _ => some .decimal
  | .string _ => some .string
  | .object _ => none

def number? : Value → Option Float
  | .boolean b => some (if b then 1 else 0)
  | .integer n => some (Float.ofInt n)
  | .decimal x => some x
  | .string _ | .object _ => none

def as? : ValueType → Value → Option Value
  | .decimal, .integer n => some (.decimal (Float.ofInt n))
  | wanted, value => if value.type? = some wanted then some value else none

-- Equality as numbers go: NaN differs from itself and 0 equals -0. The order of an
-- object's entries does not matter.
def same : Value → Value → Bool
  | .boolean a, .boolean b => a == b
  | .integer a, .integer b => a == b
  | .decimal a, .decimal b => a == b
  | .string a, .string b => a == b
  | .object as, .object bs => as.length == bs.length && sameEntries as bs
  | _, _ => false
where
  sameEntries : List (String × Value) → List (String × Value) → Bool
    | [], _ => true
    | (name,value) :: rest, bs =>
      (match bs.lookup name with
      | some other => same value other
      | none => false) && sameEntries rest bs

end Value
end DeferredAttributes
