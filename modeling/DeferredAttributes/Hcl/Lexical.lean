import DeferredAttributes.Text.Letters

-- Identifiers, and the blanks and comments between the parts of a document.
namespace DeferredAttributes.Hcl
open Text

def isWordStart (c : Char) : Bool := c == '_' || isLetter c

def isWordPart (c : Char) : Bool := c == '_' || c == '-' || isLetter c || isInner c

def sanitized : List Char → List Char
  | [] => ['_']
  | c :: cs =>
    let rest := cs.map fun d => if isWordPart d then d else '_'
    if isWordStart c then c :: rest else if isWordPart c then '_' :: c :: rest else '_' :: rest

inductive Region where
  | open
  | toLineEnd
  | toMark

-- Line breaks, and comments up to one, belong to a gap only where it may cover several lines.
def skipGap (lines : Bool) : Region → List Char → Option (List Char)
  | .open, [] => some []
  | .open, '/' :: '*' :: rest => skipGap lines .toMark rest
  | .open, '/' :: '/' :: rest => if lines then skipGap lines .toLineEnd rest else some ('/' :: '/' :: rest)
  | .open, '#' :: rest => if lines then skipGap lines .toLineEnd rest else some ('#' :: rest)
  | .open, c :: rest =>
    if c == ' ' || c == '\t' || (lines && (c == '\n' || c == '\r')) then skipGap lines .open rest
    else some (c :: rest)
  | .toLineEnd, [] => some []
  | .toLineEnd, '\r' :: '\n' :: rest => skipGap lines .open rest
  | .toLineEnd, c :: rest =>
    if c == '\n' then skipGap lines .open rest
    else if c == '\r' then none
    else skipGap lines .toLineEnd rest
  | .toMark, [] => none
  | .toMark, '*' :: '/' :: rest => skipGap lines .open rest
  | .toMark, _ :: rest => skipGap lines .toMark rest

-- The end of the text ends its last line.
def skipLineEnd (cs : List Char) : Option (List Char) := do
  let cs ← skipGap false .open cs
  let atEnd := match cs with
    | '#' :: rest | '/' :: '/' :: rest => rest.dropWhile fun c => c != '\n' && c != '\r'
    | _ => cs
  match atEnd with
  | [] => some []
  | '\n' :: rest | '\r' :: '\n' :: rest => some rest
  | _ => none

end DeferredAttributes.Hcl
