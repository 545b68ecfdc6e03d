import DeferredAttributes.Tree.Lookup
import DeferredAttributes.Expression.Evaluate

-- Reading attributes and variables from the place of one node.
namespace DeferredAttributes
open Expression

abbrev Environment := String → Option Float

def Environment.empty : Environment := fun _ => none

def Environment.ofTable (bindings : Table Float) : Environment := bindings.find?

structure Scope where
  tree : Tree
  node : Nat
  environment : Environment

-- Reads go along with a flag that says whether anything read so far may change with a
-- refresh. It is raised and never lowered.
abbrev Reading (ε α : Type) := Bool → Except ε α × Bool

namespace Scope

def get (s : Scope) (path : String) : Reading LookupError Value := fun volatile =>
  match s.tree.locate s.node path with
  | .error error => (.error error,volatile)
  | .ok key =>
    match s.tree.read key.node key.name with
    | .error error => (.error error,volatile)
    | .ok value => (.ok value,volatile || !s.tree.isDeterministic key.node key.name)

def typeName (value : Value) : String := (value.type?.map ValueType.name).getD "block"

def lookup (s : Scope) : Source Bool := fun name volatile =>
  match name.toList with
  | '$' :: rest =>
    match s.environment (String.ofList rest) with
    | some x => (.ok x,true)
    | none => (.error (.unknownVariable (String.ofList rest)),true)
  | _ =>
    match s.get name volatile with
    | (.error error,volatile) => (.error error,volatile)
    | (.ok value,volatile) =>
      match value.number? with
      | some x => (.ok x,volatile)
      | none => (.error (.notNumeric name (typeName value)),volatile)

end Scope
end DeferredAttributes
