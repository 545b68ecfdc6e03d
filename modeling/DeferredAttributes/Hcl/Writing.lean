import DeferredAttributes.Hcl.Quotes
import DeferredAttributes.Hcl.Syntax

-- Terms as text. An attribute whose value is a plain text, number or truth value stands
-- for exactly that; any other value is written as a term.
namespace DeferredAttributes.Hcl

def indentation (depth : Nat) : String := String.ofList (List.replicate (2 * depth) ' ')

structure Margin where
  depth : Nat
  compact : Bool

namespace Margin

def start : Margin := ⟨0,false⟩

def onOneLine (m : Margin) : Margin := { m with compact := true }

def inner (m : Margin) : Margin := if m.compact then m else { m with depth := m.depth + 1 }

def line (m : Margin) : String := "\n" ++ indentation m.depth

def beforeItem (m : Margin) (first : Bool) : String :=
  if m.compact then (if first then "" else ", ") else (if first then "" else ",") ++ m.line

def beforeEntry (m : Margin) (first : Bool) : String :=
  if m.compact then (if first then " " else ", ") else m.line

def beforeEnd (m : Margin) (empty : Bool) (blank : String) : String :=
  if empty then "" else if m.compact then blank else m.line

end Margin

def Part.written {α : Type} : Part α → String
  | .literal s => String.ofList (doubled s.toList)
  | .insertion _ given => "$\x7b" ++ given ++ "\x7d"

def heredocText (m : Margin) (indented : Bool) (delimiter text : String) : String :=
  (if indented then "<<-" else "<<") ++ delimiter ++ "\n" ++ text ++
    (if text.toList.getLast? == some '\n' then "" else "\n") ++
    (if indented then indentation m.depth else "") ++ delimiter

-- The state tells whether a separator is still to come: it is left out in front of
-- whatever is the first to be written since a bracket or brace was opened, be it the one
-- that encloses it or one before it.
def Term.written (m : Margin) : Term → StateM Bool String
  | .null => return "null"
  | .boolean b => return if b then "true" else "false"
  | .number n => return n.written
  | .text s => return "\"" ++ escaped s ++ "\""
  | .template parts => return "\"" ++ String.join (parts.map Part.written) ++ "\""
  | .heredoc indented delimiter parts =>
    return heredocText m indented delimiter (String.join (parts.map Part.written))
  | .name identifier => return identifier
  | .call function arguments => return function ++ "(" ++ ", ".intercalate (← all m.onOneLine arguments) ++ ")"
  | .bracketed inner => return "(" ++ (← inner.written m) ++ ")"
  | .list items => do
    set true
    let inside ← listed m.inner items
    return "[" ++ inside ++ m.beforeEnd items.isEmpty "" ++ "]"
  | .object entries => do
    set true
    let inside ← assigned m.inner entries
    return "\x7b" ++ inside ++ m.beforeEnd entries.isEmpty " " ++ "\x7d"
  | .member owner field => return (← owner.written m) ++ "." ++ field
  | .index owner position => return (← owner.written m) ++ "[" ++ (← position.written m) ++ "]"
  | .unary symbol operand => return symbol ++ (← operand.written m)
  | .binary left symbol right => return (← left.written m) ++ " " ++ symbol ++ " " ++ (← right.written m)
  | .conditional condition yes no =>
    return (← condition.written m.onOneLine) ++ " ? " ++ (← yes.written m.onOneLine) ++ " : " ++
      (← no.written m.onOneLine)
where
  all (m : Margin) : List Term → StateM Bool (List String)
    | [] => return []
    | t :: rest => return (← t.written m) :: (← all m rest)
  listed (m : Margin) : List Term → StateM Bool String
    | [] => return ""
    | t :: rest => do
      let first ← getModify fun _ => false
      return m.beforeItem first ++ (← t.written m) ++ (← listed m rest)
  assigned (m : Margin) : List (Term × Term) → StateM Bool String
    | [] => return ""
    | (key,value) :: rest => do
      let first ← getModify fun _ => false
      return m.beforeEntry first ++ (← key.written m) ++ " = " ++ (← value.written m) ++ (← assigned m rest)

def Term.raw : Term → String
  | .text s => s
  | .boolean b => if b then "true" else "false"
  | .number n => n.text
  | t => (t.written .start true).1

end DeferredAttributes.Hcl
