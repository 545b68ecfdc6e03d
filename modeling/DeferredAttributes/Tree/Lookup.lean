import DeferredAttributes.Tree.Basic
import DeferredAttributes.Value.Json

-- How attributes refer to each other.
--
--   key, @key        the closest node from here upwards that declares the key
--   @child/key       starts at the child of that name here or at the closest ancestor with one
--   @../key          starts at the parent
--   @/child/key      starts at the root
namespace DeferredAttributes
open Text

namespace Tree

def declares (t : Tree) (name : String) (id : Nat) : Bool := (t.node id).entries.contains name

def owner? (t : Tree) (id : Nat) (name : String) : Option Nat :=
  (t.ancestors id).find? (t.declares name)

def entry? (t : Tree) (id : Nat) (name : String) : Option Entry :=
  (t.owner? id name).bind fun owner => (t.node owner).entries.find? name

def isInitialized (t : Tree) (id : Nat) (name : String) : Bool :=
  (t.entry? id name).any fun entry => entry.value.isSome

-- A key without a value may still change, whatever its flag says.
def isDeterministic (t : Tree) (id : Nat) (name : String) : Bool :=
  (t.entry? id name).any fun entry => entry.value.isSome && entry.deterministic

def read (t : Tree) (id : Nat) (name : String) : Except LookupError Value :=
  match t.owner? id name with
  | none => .error (.unknown name)
  | some owner =>
    match (t.node owner).entries.find? name with
    | none => .error (.unknown name)
    | some ⟨some value,_,_,_⟩ => .ok value
    | some ⟨none,_,_,_⟩ => .error (.notInitialized ⟨owner,name⟩)

def readAs (t : Tree) (id : Nat) (name : String) (type : ValueType) : Except LookupError Value :=
  match t.read id name with
  | .error error => .error error
  | .ok value =>
    match value.as? type with
    | some value => .ok value
    | none => .error (.conversion name (.mismatch type value.text))

def pieces : List Char → List (List Char)
  | [] => [[]]
  | c :: cs =>
    if c = '/' then [] :: pieces cs else
    match pieces cs with
    | [] => [[c]]
    | piece :: rest => (c :: piece) :: rest

-- Only the first step of a relative path looks for its name in the ancestors too.
def step (t : Tree) (path : String) (first : Bool) (id : Nat) (segment : String) : Except LookupError Nat :=
  if segment = "." then .ok id
  else if segment = ".." then
    match (t.node id).parent with
    | some parent => .ok parent
    | none => .error (.invalidPath path)
  else
    let starts := if first then t.ancestors id else [id]
    match starts.findSome? fun i => (t.node i).children.find? segment with
    | some child => .ok child
    | none => .error (.unknown path)

def walk (t : Tree) (path : String) : Bool → Nat → List String → Except LookupError Nat
  | _, id, [] => .ok id
  | first, id, segment :: rest =>
    match t.step path first id segment with
    | .ok next => t.walk path false next rest
    | .error error => .error error

-- Empty segments do not count; a path whose first segment is empty starts at the root.
def locate (t : Tree) (id : Nat) (path : String) : Except LookupError Key :=
  let text := match path.toList with
    | '@' :: rest => rest
    | all => all
  let parts := pieces text
  let name := String.ofList (parts.getLast?.getD [])
  if name = "" ∨ name = ".." ∨ name = "." then .error (.invalidPath path) else
  let navigation := parts.dropLast
  let absolute := navigation.head? == some []
  let segments := (navigation.filter fun piece => !piece.isEmpty).map String.ofList
  match t.walk path (!absolute) (if absolute then 0 else id) segments with
  | .error error => .error error
  | .ok start =>
    match t.owner? start name with
    | some owner => .ok ⟨owner,name⟩
    | none => .error (.unknown path)

end Tree
end DeferredAttributes
