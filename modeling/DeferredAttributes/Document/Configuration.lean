import DeferredAttributes.Hcl.Lexical
import DeferredAttributes.Hcl.Writing
import DeferredAttributes.Schema.Basic

-- Documents as a block tree and a schema. Blocks of the kind `type` declare the attributes
-- of another kind. They count at the top level only, where they become no node; what is
-- left out for any other reason is reported.
namespace DeferredAttributes
open Hcl

structure Document where
  source : Option String
  body : Body

def declaration (kind : String) (labels : List String) : String :=
  kind ++ String.join (labels.map fun label => " " ++ Text.quoted label)

def blockName (kind : String) (labels : List String) : String :=
  match labels.getLast? with
  | some label => String.ofList (sanitized label.toList)
  | none => kind

def typeKind : String := "type"

structure Content where
  attributes : List (String × String)
  children : List Block
  issues : Report

def blockOf (source : Option String) (kind : String) (labels : List String) (inner : Content) : Block :=
  ⟨kind,blockName kind labels,⟨source,declaration kind labels⟩,inner.attributes,inner.children⟩

def contentOf (source : Option String) : Body → Content
  | [] => ⟨[],[],[]⟩
  | .attribute name value :: rest =>
    let others := contentOf source rest
    { others with attributes := (name,value.raw) :: others.attributes }
  | .block kind labels body :: rest =>
    let others := contentOf source rest
    if kind = typeKind then
      { others with issues := .invalidBlock ⟨source,declaration kind labels⟩ .notAtTopLevel :: others.issues }
    else
      let inner := contentOf source body
      { others with
        children := blockOf source kind labels inner :: others.children
        issues := inner.issues ++ others.issues }

def declaredKind : List String → Except BlockFault String
  | [] => .error .labelMissing
  | [kind] => .ok kind
  | _ => .error .tooManyLabels

def nestedBlocks (source : Option String) (body : Body) : Report := body.filterMap fun
  | .attribute .. => none
  | .block kind labels _ => some (.invalidBlock ⟨source,declaration kind labels⟩ .containsBlock)

def specEntries (body : Body) : List (String × Except SpecError Spec) := body.filterMap fun
  | .attribute name value => some (name,Spec.parse value.raw)
  | .block .. => none

structure Configuration where
  root : Block
  schema : Schema
  issues : Report

namespace Configuration

def empty : Configuration := ⟨⟨"","",⟨none,"(root)"⟩,[],[]⟩,[],[]⟩

def addEntry (kind : String) (origin : Origin) (c : Configuration)
    (entry : String × Except SpecError Spec) : Configuration :=
  match entry with
  | (name,.ok spec) => { c with schema := c.schema.declare kind name spec }
  | (name,.error error) => { c with issues := c.issues ++ [.invalidSpec name origin error] }

def addType (c : Configuration) (source : Option String) (labels : List String) (body : Body) : Configuration :=
  let origin : Origin := ⟨source,declaration typeKind labels⟩
  match declaredKind labels with
  | .error fault => { c with issues := c.issues ++ [.invalidBlock origin fault] }
  | .ok kind =>
    (specEntries body).foldl (addEntry kind origin) { c with issues := c.issues ++ nestedBlocks source body }

def add (c : Configuration) (source : Option String) : Structure → Configuration
  | .attribute name value =>
    { c with root := { c.root with attributes := c.root.attributes ++ [(name,value.raw)] } }
  | .block kind labels body =>
    if kind = typeKind then c.addType source labels body
    else
      let inner := contentOf source body
      { c with
        root := { c.root with children := c.root.children ++ [blockOf source kind labels inner] }
        issues := c.issues ++ inner.issues }

def addDocument (c : Configuration) (d : Document) : Configuration :=
  d.body.foldl (fun c s => c.add d.source s) c

def ofDocuments (documents : List Document) : Configuration := documents.foldl addDocument empty

end Configuration
end DeferredAttributes
