import DeferredAttributes.Value.Basic

-- Nodes in an arena: a node's number is its place, and its parent has a smaller one.
namespace DeferredAttributes

-- Nodes are numbered in the order in which they were added; the root is number 0.
structure Key where
  node : Nat
  name : String
deriving Repr, DecidableEq

-- A key that is declared but has no value yet is a case of its own: it may get one later.
inductive LookupError where
  | unknown (name : String)
  | notInitialized (key : Key)
  | notNumeric (path : String) (type : String)
  | invalidPath (path : String)
  | unknownVariable (name : String)
  | conversion (path : String) (source : ConversionError)

def LookupError.message : LookupError → String
  | .unknown name => "'" ++ name ++ "' is declared nowhere"
  | .notInitialized key => "'" ++ key.name ++ "' is not initialized"
  | .notNumeric path type => "'" ++ path ++ "' is a " ++ type ++ " and cannot be used in an expression"
  | .invalidPath path => "'" ++ path ++ "' is not a valid path"
  | .unknownVariable name => "unknown environment variable '" ++ name ++ "'"
  | .conversion path source => "'" ++ path ++ "': " ++ source.message

structure Origin where
  source : Option String
  declaration : String
deriving Repr, DecidableEq

def Origin.blank : Origin := ⟨none,""⟩

-- A declared key. `deterministic` says that no refresh changes the value; it holds until
-- a write says otherwise. `modified` is the node's version at the last write.
structure Entry where
  value : Option Value
  type : ValueType
  deterministic : Bool
  modified : Nat

def Entry.blank (type : ValueType) : Entry := ⟨none,type,true,0⟩

structure Node where
  name : String
  parent : Option Nat
  children : Table Nat
  entries : Table Entry
  origin : Origin
  version : Nat
  valid : Bool

def Node.new (name : String) (parent : Option Nat) (origin : Origin) : Node :=
  ⟨name,parent,[],[],origin,0,true⟩

structure Tree where
  nodes : Array Node

namespace Tree

def new (origin : Origin) : Tree := ⟨#[.new "" none origin]⟩

-- A number that no node has stands for a node without content.
def node (t : Tree) (id : Nat) : Node := t.nodes[id]?.getD (.new "" none .blank)

def modify (t : Tree) (id : Nat) (change : Node → Node) : Tree := ⟨t.nodes.modify id change⟩

def setValid (t : Tree) (id : Nat) (valid : Bool) : Tree :=
  t.modify id fun n => { n with valid := valid }

-- A parent is older than its children, so the walk goes down in numbers.
def ancestors (t : Tree) (id : Nat) : List Nat :=
  id :: match (t.node id).parent with
    | none => []
    | some parent => if parent < id then t.ancestors parent else []
termination_by id

def isWithin (t : Tree) (id ancestor : Nat) : Bool := (t.ancestors id).contains ancestor

end Tree
end DeferredAttributes
