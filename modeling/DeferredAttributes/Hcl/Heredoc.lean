import DeferredAttributes.Hcl.Syntax
import DeferredAttributes.Text.Blank

-- Text over whole lines, up to a line that starts with its delimiter.
namespace DeferredAttributes.Hcl
open Text

def isIndent (c : Char) : Bool := c == ' ' || c == '\t'

def closes (delimiter : List Char) (line : List Char) : Bool :=
  delimiter.isPrefixOf (line.dropWhile isIndent)

def passage (delimiter : List Char) : List Char → Option (List Char × List Char)
  | [] => none
  | '$' :: '$' :: '\x7b' :: rest => (passage delimiter rest).map fun (cs,rest) => ('$' :: '\x7b' :: cs,rest)
  | '%' :: '%' :: '\x7b' :: rest => (passage delimiter rest).map fun (cs,rest) => ('%' :: '\x7b' :: cs,rest)
  | '$' :: '\x7b' :: rest => some ([],'$' :: '\x7b' :: rest)
  | '%' :: '\x7b' :: rest => some ([],'%' :: '\x7b' :: rest)
  | '\r' :: '\n' :: rest =>
    if closes delimiter rest then some ([],'\r' :: '\n' :: rest)
    else (passage delimiter rest).map fun (cs,rest) => ('\r' :: '\n' :: cs,rest)
  | c :: rest =>
    if c == '\n' && closes delimiter rest then some ([],c :: rest)
    else (passage delimiter rest).map fun (cs,rest) => (c :: cs,rest)

def textLines : List Char → List (List Char)
  | [] => []
  | '\r' :: '\n' :: rest => [] :: textLines rest
  | c :: rest =>
    if c == '\n' then [] :: textLines rest else
    match textLines rest with
    | [] => [[c]]
    | line :: others => (c :: line) :: others

-- How many blanks stand in front of every line; empty lines do not count, and where an
-- insertion stands in front of the text, its first line does not.
def margin? (inside : Bool) (s : String) : Option Nat :=
  let lines := (textLines s.toList).drop (if inside then 1 else 0)
  ((lines.filter (!·.isEmpty)).map fun line => (line.takeWhile isBlank).length).min?

def movedOut (width : Nat) (inside : Bool) (s : String) : String :=
  if width = 0 then s else
  let lines := textLines s.toList
  let moved := if inside then lines.take 1 ++ (lines.drop 1).map (List.drop width) else lines.map (List.drop width)
  String.ofList ((['\n'].intercalate moved) ++ if s.toList.getLast? == some '\n' then ['\n'] else [])

def margins {α : Type} (inside : Bool) : List (Part α) → List Nat
  | [] => []
  | .literal s :: rest => (margin? inside s).toList ++ margins true rest
  | .insertion .. :: rest => margins true rest

def mapLiterals {α : Type} (f : Bool → String → String) (inside : Bool) : List (Part α) → List (Part α)
  | [] => []
  | .literal s :: rest => .literal (f inside s) :: mapLiterals f true rest
  | .insertion inner given :: rest => .insertion inner given :: mapLiterals f true rest

def outdented {α : Type} (parts : List (Part α)) : List (Part α) :=
  mapLiterals (movedOut ((margins false parts).min?.getD 0)) false parts

end DeferredAttributes.Hcl
