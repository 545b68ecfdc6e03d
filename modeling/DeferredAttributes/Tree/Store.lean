import DeferredAttributes.Tree.Rendering
import DeferredAttributes.Value.Json

-- The changes of a tree: new nodes, new keys, new values. Nodes and keys never go away.
namespace DeferredAttributes

inductive StoreError where
  | undeclared (key : String)
  | typeMismatch (key : String) (declared : ValueType) (value : Value)
  | duplicateChild (parent : String) (name : String) (existing : Origin)

def StoreError.message : StoreError → String
  | .undeclared key => "'" ++ key ++ "' was never declared"
  | .typeMismatch key declared value =>
    "'" ++ key ++ "' is declared as " ++ declared.name ++ " but got " ++ value.text
  | .duplicateChild parent name existing =>
    "'" ++ name ++ "' already exists in " ++ parent ++ " (first declared at " ++ existing.text ++ ")"

namespace Tree

def addChild (t : Tree) (parent : Nat) (name : String) (origin : Origin) : Except StoreError (Nat × Tree) :=
  match (t.node parent).children.find? name with
  | some existing => .error (.duplicateChild (t.path parent) name (t.node existing).origin)
  | none =>
    let id := t.nodes.size
    let grown : Tree := ⟨t.nodes.push (.new name (some parent) origin)⟩
    .ok (id,grown.modify parent fun n => { n with children := n.children.insert name id })

def declare (t : Tree) (id : Nat) (name : String) (type : ValueType) : Tree :=
  t.modify id fun n =>
    if n.entries.contains name then n else { n with entries := n.entries.insert name (.blank type) }

def write (t : Tree) (key : Key) (value : Value) (deterministic : Bool) : Except StoreError Tree :=
  match (t.node key.node).entries.find? key.name with
  | none => .error (.undeclared (t.displayKey key))
  | some entry =>
    if value.type? = some entry.type then
      .ok <| t.modify key.node fun n =>
        let version := n.version + 1
        let entry := { entry with value := some value, deterministic := deterministic, modified := version }
        { n with entries := n.entries.insert key.name entry, version := version }
    else .error (.typeMismatch (t.displayKey key) entry.type value)

end Tree
end DeferredAttributes
