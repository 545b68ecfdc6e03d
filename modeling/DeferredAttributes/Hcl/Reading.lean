import DeferredAttributes.Hcl.Heredoc
import DeferredAttributes.Hcl.Lexical
import DeferredAttributes.Hcl.Quotes

-- Reading of terms. Each reader answers what it has read and the text behind it, or
-- nothing where the text is none of its kind.
namespace DeferredAttributes.Hcl
open Decimal

-- The text that is still to come, and what is kept of the text that was passed: it is
-- kept as given, but text in quotes gets the usual escapes, and what has no effect is left
-- out. `since` is where the stretch began that nothing has been changed in.
structure Cursor where
  ahead : List Char
  since : List Char
  kept : String

def Cursor.ofText (cs : List Char) : Cursor := ⟨cs,cs,""⟩

def Cursor.text (c : Cursor) : String :=
  c.kept ++ String.ofList (c.since.take (c.since.length - c.ahead.length))

abbrev Reader (α : Type) := StateT Cursor Option α

def ahead : Reader (List Char) := return (← get).ahead

def keep (text : String) : Reader Unit := modify fun c => ⟨c.ahead,c.ahead,c.text ++ text⟩

def apart {α : Type} (reader : Reader α) : Reader (α × String) := fun c => do
  let (result,d) ← reader (.ofText c.ahead)
  return ((result,d.text),⟨d.ahead,d.ahead,c.text⟩)

def passing {α : Type} (scan : List Char → Option (α × List Char)) : Reader α := do
  match scan (← ahead) with
  | some (result,later) => do modify ({ · with ahead := later }); return result
  | none => failure

def gap (lines : Bool) : Reader Unit := passing fun cs => (skipGap lines .open cs).map fun later => ((),later)

def lineEnd : Reader Unit := passing fun cs => (skipLineEnd cs).map fun later => ((),later)

def takeWhile (p : Char → Bool) : Reader (List Char) := passing fun cs => some (cs.takeWhile p,cs.dropWhile p)

def accept (symbol : String) : Reader Bool := passing fun cs =>
  if symbol.toList.isPrefixOf cs then some (true,cs.drop symbol.length) else some (false,cs)

def expect (symbol : String) : Reader Unit := do
  if ← accept symbol then return else failure

def nextIs (p : Char → Bool) : Reader Bool := return (← ahead).head?.any p

def word : Reader String := do
  let cs ← takeWhile isWordPart
  if cs.head?.any isWordStart then return String.ofList cs else failure

def digits : Reader (List Char) := do
  let cs ← takeWhile isDigit
  if cs.isEmpty then failure else return cs

def fraction : Reader (List Char) := do
  match ← ahead with
  | '.' :: c :: _ => if isDigit c then do expect "."; digits else return []
  | _ => return []

def exponentMark : Reader Bool := passing fun
  | 'e' :: rest | 'E' :: rest => some (true,rest)
  | cs => some (false,cs)

def exponent? : Reader (Option Int) := do
  if ← exponentMark then
    let negative ← accept "-"
    if !negative then let _ ← accept "+"
    let power := (natOf (← digits) : Int)
    return some (if negative then -power else power)
  else return none

-- Digits alone have at most 64 bits, and no other number is so large that it is infinite.
def number : Reader Number := do
  let whole ← digits
  let fraction ← fraction
  match ← exponent? with
  | none =>
    if fraction.isEmpty then
      if natOf whole ≤ largestWhole then return .whole (natOf whole) else failure
    else real whole fraction 0
  | some power => real whole fraction power
where
  real (whole fraction : List Char) (power : Int) : Reader Number := do
    let x := ofDigits (natOf (whole ++ fraction)) (power - (fraction.length : Int))
    if x.isFinite then return .ofFloat x else failure

def plainText : Reader String := do
  let cs ← passing literal
  expect "\""
  return String.ofList cs

def Part.kept {α : Type} : Part α → String
  | .literal s => escaped s
  | .insertion _ given => "$\x7b" ++ given ++ "\x7d"

def literalPart {α : Type} (cs : List Char) (rest : List (Part α)) : List (Part α) :=
  if cs.isEmpty then rest else .literal (String.ofList cs) :: rest

def lineBreak : Reader (List Char) := passing fun
  | '\r' :: '\n' :: rest => some (['\r','\n'],rest)
  | '\n' :: rest => some (['\n'],rest)
  | _ => none

def symbols : List String :=
  ["==","!=","<=",">=","&&","||","<",">","+","-","*","/","%"]

def symbol? : Reader (Option String) := passing fun cs =>
  if "//".toList.isPrefixOf cs then some (none,cs) else
  match symbols.find? fun symbol => symbol.toList.isPrefixOf cs with
  | some symbol => some (some symbol,cs.drop symbol.length)
  | none => some (none,cs)

-- What a term may hold at the place where it stands: line breaks between its parts, and
-- a choice. The operand behind a binary operator leaves a choice to the whole, and what
-- follows it in lists and arguments, and in the branches of that choice, holds none either.
structure Leeway where
  lines : Bool
  choice : Bool

def Leeway.none : Leeway := ⟨false,true⟩

def Leeway.inBrackets : Leeway := ⟨true,true⟩

structure Entry where
  key : Term
  value : Term
  opening : String
  closing : String

def Entry.put (e : Entry) : List Entry → List Entry
  | [] => [e]
  | f :: rest => if f.key.same e.key then { e with key := f.key, opening := f.opening } :: rest else f :: e.put rest

mutual

def term (leeway : Leeway) : Nat → Reader Term
  | 0 => failure
  | n + 1 => do
    let (first,lines) ← operand leeway n
    continued leeway.choice ⟨lines,leeway.choice⟩ first n

def continued (mayChoose : Bool) (leeway : Leeway) (left : Term) : Nat → Reader Term
  | 0 => failure
  | n + 1 => do
    let before ← get
    gap leeway.lines
    if ← accept "." then
      gap true
      continued mayChoose leeway (.member left (← word)) n
    else if ← accept "[" then
      gap true
      let position ← term .inBrackets n
      gap true
      expect "]"
      continued mayChoose leeway (.index left position) n
    else match ← symbol? with
      | some symbol =>
        gap leeway.lines
        let right ← term ⟨leeway.lines,false⟩ n
        continued mayChoose ⟨leeway.lines,false⟩ (.binary left symbol right) n
      | none =>
        if mayChoose then
          if ← accept "?" then
            gap leeway.lines
            let yes ← term leeway n
            gap leeway.lines
            expect ":"
            gap leeway.lines
            let no ← term leeway n
            return .conditional left yes no
          else
            set before
            return left
        else
          set before
          return left

-- A term that nothing is selected from, and whether line breaks may follow: behind a list
-- or a call they always may. A minus sign in front of a number belongs to the number.
def operand (leeway : Leeway) : Nat → Reader (Term × Bool)
  | 0 => failure
  | n + 1 => do
    if ← nextIs (· == '!') then signed leeway "!" n
    else if ← nextIs (· == '-') then
      let before ← get
      expect "-"
      gap false
      if ← nextIs isDigit then return (.number (← number).negated,leeway.lines)
      else
        set before
        signed leeway "-" n
    else primary leeway n

-- Of several signs in a row only the last one counts.
def signed (leeway : Leeway) (symbol : String) : Nat → Reader (Term × Bool)
  | 0 => failure
  | n + 1 => do
    let (_,sign) ← apart do expect symbol; gap false
    let ((inner,lines),given) ← apart (operand leeway n)
    match inner with
    | .unary .. => do keep given; return (inner,lines)
    | _ => do keep (sign ++ given); return (.unary symbol inner,lines)

def primary (leeway : Leeway) : Nat → Reader (Term × Bool)
  | 0 => failure
  | n + 1 => do
    if ← nextIs (· == '"') then
      let (parts,_) ← apart do expect "\""; quoted n
      keep ("\"" ++ String.join (parts.map Part.kept) ++ "\"")
      match parts with
      | [] => return (.text "",leeway.lines)
      | [.literal s] => return (.text s,leeway.lines)
      | _ => return (.template parts,leeway.lines)
    else if ← accept "(" then
      gap true
      let inner ← term .inBrackets n
      gap true
      expect ")"
      return (.bracketed inner,leeway.lines)
    else if ← accept "[" then return (.list (← items ⟨true,leeway.choice⟩ "]" n),true)
    else if ← accept "\x7b" then
      let entries ← entries [] n
      return (.object (entries.map fun e => (e.key,e.value)),leeway.lines)
    else if ← accept "<<" then
      let indented ← accept "-"
      let delimiter ← word
      let _ ← lineBreak
      let parts ← filled delimiter.toList n <|> (do
        let _ ← takeWhile isIndent
        expect delimiter
        return [])
      return (.heredoc (indented && !parts.isEmpty) delimiter (if indented then outdented parts else parts),
        leeway.lines)
    else if ← nextIs isDigit then return (.number (← number),leeway.lines)
    else match ← word with
      | "null" => return (.null,leeway.lines)
      | "true" => return (.boolean true,leeway.lines)
      | "false" => return (.boolean false,leeway.lines)
      | identifier =>
        let before ← get
        gap leeway.lines
        if ← accept "(" then return (.call identifier (← items ⟨true,leeway.choice⟩ ")" n),true)
        else
          set before
          return (.name identifier,leeway.lines)

def items (leeway : Leeway) (closing : String) : Nat → Reader (List Term)
  | 0 => failure
  | n + 1 => do
    gap true
    if ← accept closing then return [] else
    let item ← term leeway n
    gap true
    if ← accept "," then return item :: (← items leeway closing n)
    else
      expect closing
      return [item]

def entries (before : List Entry) : Nat → Reader (List Entry)
  | 0 => failure
  | n + 1 => do
    let (_,indent) ← apart (gap true)
    if ← nextIs (· == '\x7d') then
      keep (String.join (before.map fun e => e.opening ++ e.closing) ++ indent)
      expect "\x7d"
      return before
    else
      let (key,opening) ← apart do
        let key ← term .none n
        gap false
        return key
      let (value,closing) ← apart do
        if !(← accept "=") then expect ":"
        gap true
        let value ← term .none n
        gap false
        if ← nextIs (· == '\x7d') then return value
        else if ← accept "," then return value
        else
          lineEnd
          return value
      entries (Entry.put ⟨key,value,indent ++ opening,closing⟩ before) n

def quoted : Nat → Reader (List (Part Term))
  | 0 => failure
  | n + 1 => do
    let cs ← passing literal
    if ← accept "\"" then return literalPart cs []
    else
      let part ← insertion n
      return literalPart cs (part :: (← quoted n))

def filled (delimiter : List Char) : Nat → Reader (List (Part Term))
  | 0 => failure
  | n + 1 => do
    let cs ← passing (passage delimiter)
    if ← nextIs (fun c => c == '$' || c == '%') then
      let part ← insertion n
      return literalPart cs (part :: (← filled delimiter n))
    else
      let ending ← lineBreak
      let _ ← takeWhile isIndent
      expect (String.ofList delimiter)
      return literalPart (cs ++ ending) []

def insertion : Nat → Reader (Part Term)
  | 0 => failure
  | n + 1 => do
    expect "$\x7b"
    let (inner,given) ← apart do
      gap true
      let inner ← term .inBrackets n
      gap true
      return inner
    keep given
    expect "\x7d"
    return .insertion inner given

end

-- Between two characters that are passed at most five readers call each other.
def value : Reader Term := do
  gap false
  let (term,_) ← apart (term .none (6 * (← ahead).length + 6))
  return term

end DeferredAttributes.Hcl
