import DeferredAttributes.Schema.Basic
import DeferredAttributes.Resolution.Refresh

-- From blocks to a resolved tree. All blocks and attributes are declared before the first
-- attribute is tried, so that a reference to one that comes later is known as such.
namespace DeferredAttributes

structure Declared where
  tree : Tree
  assignments : List Assignment
  issues : Report

namespace Declared

def below (t : Tree) (node : Nat) (name : String) : String :=
  let path := (t.path node).toList.reverse.dropWhile (· == '/')
  String.ofList path.reverse ++ "/" ++ name

def addAttribute (schema : Schema) (kind : String) (origin : Origin) (node : Nat)
    (d : Declared) (entry : String × String) : Declared :=
  let (name,raw) := entry
  if d.tree.declares name node then
    { d with
      tree := d.tree.setValid node false
      issues := d.issues ++ [.duplicateAttribute (below d.tree node name) origin] }
  else
    let a := schema.assignment kind ⟨node,name⟩ raw
    { d with tree := d.tree.declare node name a.resolver.type, assignments := d.assignments ++ [a] }

def collision (d : Declared) (node : Nat) (child : Block) : Declared :=
  let existing := ((d.tree.node node).children.find? child.name).map fun id => (d.tree.node id).origin
  { d with
    tree := d.tree.setValid node false
    issues := d.issues ++ [.duplicateBlock (below d.tree node child.name) child.origin (existing.getD .blank)] }

mutual

def addBlock (schema : Schema) (d : Declared) (node : Nat) : Block → Declared
  | ⟨kind,_,origin,attributes,children⟩ =>
    addChildren schema (attributes.foldl (addAttribute schema kind origin node) d) node children

-- A child whose name is taken is left out with all that is in it.
def addChildren (schema : Schema) (d : Declared) (node : Nat) : List Block → Declared
  | [] => d
  | child :: rest =>
    match d.tree.addChild node child.name child.origin with
    | .ok (id,t) => addChildren schema (addBlock schema { d with tree := t } id child) node rest
    | .error _ => addChildren schema (d.collision node child) node rest

end

def ofBlock (schema : Schema) (root : Block) : Declared :=
  addBlock schema ⟨.new root.origin,[],[]⟩ 0 root

end Declared

def Block.load (schema : Schema) (environment : Environment) (root : Block) : Report × Resolution :=
  let declared := Declared.ofBlock schema root
  let tried := declared.assignments.foldl (Resolution.load environment) (.start declared.tree)
  let (issues,s) := tried.finish environment
  (declared.issues ++ issues,s)

end DeferredAttributes
