import DeferredAttributes.Value.Json

-- Values as YAML in block style.
namespace DeferredAttributes
open Text

def yamlNumbers : Decimal.Layout :=
  { positional := some (-5,15), pointZero := true, plus := false, tie := .even
    nan := ".nan", infinity := ".inf", negativeInfinity := "-.inf" }

namespace Yaml

def isNull (s : String) : Bool := s == "" || s == "null" || s == "Null" || s == "NULL" || s == "~"

def isBoolean (s : String) : Bool :=
  s == "true" || s == "True" || s == "TRUE" || s == "false" || s == "False" || s == "FALSE"

def isZeroPadded (cs : List Char) : Bool :=
  let digits := match cs with
    | '-' :: rest => rest
    | '+' :: rest => rest
    | _ => cs
  digits.length > 1 && digits.head? == some '0' && digits.all Decimal.isDigit

def digitOf? (c : Char) : Option Nat :=
  if Decimal.isDigit c then some (c.toNat - '0'.toNat)
  else if 'a' ≤ c && c ≤ 'f' then some (c.toNat - 'a'.toNat + 10)
  else if 'A' ≤ c && c ≤ 'F' then some (c.toNat - 'A'.toNat + 10)
  else none

def radixNat? (radix : Nat) (cs : List Char) : Option Nat :=
  if cs.isEmpty then none else
  cs.foldl (fun total c => do
    let sum ← total
    let digit ← digitOf? c
    if digit < radix then some (sum * radix + digit) else none) (some 0)

def isInteger (cs : List Char) : Bool :=
  let (negative,body) := match cs with
    | '-' :: rest => (true,rest)
    | '+' :: rest => (false,rest)
    | _ => (false,cs)
  let limit := if negative then Nat.pow 2 127 else Nat.pow 2 128 - 1
  let within : Option Nat → Bool
    | some n => n ≤ limit
    | none => false
  match body with
  | '0' :: 'x' :: digits => within (radixNat? 16 digits)
  | '0' :: 'o' :: digits => within (radixNat? 8 digits)
  | '0' :: 'b' :: digits => within (radixNat? 2 digits)
  | _ => !isZeroPadded cs && within (radixNat? 10 body)

def isFloat (cs : List Char) : Bool :=
  let s := String.ofList cs
  let unsigned := match cs with
    | '+' :: rest => rest
    | _ => cs
  let name := String.ofList unsigned
  if cs.head? == some '+' && (unsigned.head? == some '+' || unsigned.head? == some '-') then false
  else if name == ".inf" || name == ".Inf" || name == ".INF" then true
  else if s == "-.inf" || s == "-.Inf" || s == "-.INF" then true
  else if s == ".nan" || s == ".NaN" || s == ".NAN" then true
  else match Decimal.read unsigned with
    | .ok x => !isZeroPadded cs && (x - x == 0)
    | .error _ => false

-- Plain text that would read back as something else than a string, or that only a
-- reader with other rules for leading zeros takes for a string.
def isAmbiguous (s : String) : Bool :=
  isNull s || isBoolean s || isInteger s.toList || isFloat s.toList || isZeroPadded s.toList

inductive Style where
  | plain
  | single
  | double
  | literal
deriving DecidableEq

def isBreak (c : Char) : Bool :=
  c == '\n' || c == '\r' || c.toNat == 0x85 || c.toNat == 0x2028 || c.toNat == 0x2029

def isShown (c : Char) : Bool :=
  let n := c.toNat
  c == '\n' || (0x20 ≤ n && n ≤ 0x7e) || (0xa0 ≤ n && n != 0xfeff && n < 0xfffe) || 0x10000 ≤ n

def isSpaceOrEnd : Option Char → Bool
  | none => true
  | some c => c == ' ' || c == '\t' || isBreak c || c == '\x00'

def startsIndicator : List Char → Bool
  | [] => false
  | c :: rest =>
    "#,[]\x7b\x7d&*!|>'\"%@\x60".toList.contains c ||
    ((c == '?' || c == ':' || c == '-') && isSpaceOrEnd rest.head?)

-- A colon before a blank ends a key, a number sign behind one starts a comment.
def hasIndicator : Char → List Char → Bool
  | _, [] => false
  | before, c :: rest =>
    (c == ':' && isSpaceOrEnd rest.head?) || (c == '#' && isSpaceOrEnd (some before)) || hasIndicator c rest

def adjacent (first second : Char → Bool) : List Char → Bool
  | a :: b :: rest => (first a && second b) || adjacent first second (b :: rest)
  | _ => false

-- The first style of plain, single quotes and double quotes that can hold the text;
-- text with line feeds prefers a literal block.
def styleOf (s : String) : Style :=
  let cs := s.toList
  let isSpace : Char → Bool := (· == ' ')
  let hidden := !cs.all isShown
  let spaceBreak := adjacent isSpace isBreak cs
  let breakSpace := adjacent isBreak isSpace cs
  let edge := cs.head?.any (fun c => isSpace c || isBreak c) || cs.getLast?.any (fun c => isSpace c || isBreak c)
  let multiline := cs.any isBreak
  let marker := "---".toList.isPrefixOf cs || "...".toList.isPrefixOf cs
  let indicator := marker || startsIndicator cs ||
    (match cs with | [] => false | c :: rest => hasIndicator c rest)
  if cs.contains '\n' then
    if hidden || spaceBreak || cs.getLast? == some ' ' then .double else .literal
  else if hidden || spaceBreak || breakSpace then .double
  else if isAmbiguous s || edge || multiline || indicator then .single
  else .plain

def fixedHex (width n : Nat) : String :=
  let digits := (Nat.toDigits 16 n).map Char.toUpper
  String.ofList (List.replicate (width - digits.length) '0' ++ digits)

def doubleQuotedChar (c : Char) : String :=
  let n := c.toNat
  if c == '"' then "\\\"" else if c == '\\' then "\\\\"
  else if isShown c && !isBreak c then c.toString
  else if n == 0 then "\\0" else if n == 7 then "\\a" else if n == 8 then "\\b" else if n == 9 then "\\t"
  else if n == 10 then "\\n" else if n == 11 then "\\v" else if n == 12 then "\\f" else if n == 13 then "\\r"
  else if n == 0x1b then "\\e" else if n == 0x85 then "\\N" else if n == 0x2028 then "\\L"
  else if n == 0x2029 then "\\P"
  else if n ≤ 0xff then "\\x" ++ fixedHex 2 n
  else if n ≤ 0xffff then "\\u" ++ fixedHex 4 n
  else "\\U" ++ fixedHex 8 n

def singleQuoted (s : String) : String :=
  "'" ++ String.join (s.toList.map fun c => if c == '\'' then "''" else c.toString) ++ "'"

def doubleQuoted (s : String) : String := "\"" ++ String.join (s.toList.map doubleQuotedChar) ++ "\""

-- The header of a literal block tells how its end is to be read, and the depth of its
-- lines where the first of them starts with a blank.
def literalHeader (cs : List Char) : String :=
  let indent := if cs.head?.any (fun c => c == ' ' || isBreak c) then "2" else ""
  let ending := match cs.reverse with
    | '\n' :: '\n' :: _ => "+"
    | ['\n'] => "+"
    | '\n' :: _ => ""
    | _ => "-"
  "|" ++ indent ++ ending ++ "\n"

def literalLines (depth : Nat) (s : String) : String :=
  let lines := (s.splitOn "\n").map fun line =>
    if line.isEmpty then "" else Value.indentation depth ++ line
  let lines := if lines.getLast? == some "" then lines.dropLast else lines
  String.join (lines.map (· ++ "\n"))

def scalar (depth : Nat) (s : String) : String :=
  match styleOf s with
  | .plain => s ++ "\n"
  | .single => singleQuoted s ++ "\n"
  | .double => doubleQuoted s ++ "\n"
  | .literal => literalHeader s.toList ++ literalLines depth s

-- A short key on one line stands in front of its colon. Any other one is announced by a
-- question mark, and its value stands below it.
def isSimpleKey (s : String) : Bool := s.utf8ByteSize ≤ 128 && !s.toList.any isBreak

def simpleKey (s : String) : String :=
  match styleOf s with
  | .plain => s
  | .single => singleQuoted s
  | .double | .literal => doubleQuoted s

def key (depth : Nat) (s : String) : String :=
  if isSimpleKey s then simpleKey s ++ ":"
  else "? " ++ scalar (depth + 1) s ++ Value.indentation depth ++ ":"

end Yaml

namespace Value

-- Only the first line is not indented. An object that is not empty starts on the line below a
-- simple key and beside the colon of any other.
def yamlFields (depth : Nat) : List (String × Value) → String
  | [] => ""
  | (name,value) :: rest =>
    Yaml.key depth name ++
    (match value with
      | .boolean b => if b then " true\n" else " false\n"
      | .integer n => " " ++ toString n ++ "\n"
      | .decimal x => " " ++ yamlNumbers.text x ++ "\n"
      | .string s => " " ++ Yaml.scalar (depth + 1) s
      | .object entries =>
        if entries.isEmpty then " \x7b\x7d\n"
        else (if Yaml.isSimpleKey name then "\n" ++ Value.indentation (depth + 1) else " ") ++
          yamlFields (depth + 1) entries) ++
    (if rest.isEmpty then "" else Value.indentation depth ++ yamlFields depth rest)

def yaml : Value → String
  | .boolean b => if b then "true\n" else "false\n"
  | .integer n => toString n ++ "\n"
  | .decimal x => yamlNumbers.text x ++ "\n"
  | .string s => Yaml.scalar 1 s
  | .object entries => if entries.isEmpty then "\x7b\x7d\n" else yamlFields 0 entries

end Value
end DeferredAttributes
