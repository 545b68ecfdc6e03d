import DeferredAttributes.Tree.Basic

-- How blocks and keys are named in messages, and a tree as one value.
namespace DeferredAttributes

def Origin.text (o : Origin) : String :=
  match o.source with
  | some path => o.declaration ++ " (" ++ path ++ ")"
  | none => o.declaration

namespace Tree

def path (t : Tree) (id : Nat) : String :=
  let names := ((t.ancestors id).filter (· ≠ 0)).map fun i => (t.node i).name
  "/" ++ "/".intercalate names.reverse

def displayKey (t : Tree) (key : Key) : String :=
  if key.node = 0 then "/" ++ key.name else t.path key.node ++ "/" ++ key.name

-- A child is newer than its parent, so the descent ends. A child named like a key takes that
-- key's place.
def toValue (t : Tree) (id : Nat) : Value :=
  let n := t.node id
  let own : Table Value := n.entries.filterMap fun (name,entry) => entry.value.map fun value => (name,value)
  .object <| n.children.foldl (fun (table : Table Value) (name,child) =>
    table.insert name (if id < child ∧ child < t.nodes.size then t.toValue child else .object [])) own
termination_by t.nodes.size - id
decreasing_by omega

end Tree
end DeferredAttributes
