import DeferredAttributes.Proofs.Document.Contents

-- What documents come down to. The walk over them adds to one tree, one schema and one report;
-- step by step it keeps a list for each question about the lines of the top level.
namespace DeferredAttributes
open Hcl

structure Declaration where
  kind : String
  name : String
  origin : Origin
  spec : Except SpecError Spec

namespace Declaration

def fault? (d : Declaration) : Option Issue :=
  match d.spec with
  | .error error => some (.invalidSpec d.name d.origin error)
  | .ok _ => none

def about? (kind name : String) (d : Declaration) : Option Spec :=
  if d.kind = kind ∧ d.name = name then d.spec.toOption else none

end Declaration

namespace Written

def label? (t : Written) : Option String :=
  match t.labels with
  | [kind] => some kind
  | _ => none

def labelFault (t : Written) : Issue :=
  .invalidBlock t.origin (if t.labels = [] then .labelMissing else .tooManyLabels)

def contained (t : Written) : Report := (blocksOf t.lines).map fun w => .invalidBlock w.origin .containsBlock

def declarations (kind : String) (t : Written) : List Declaration :=
  (attributesOf t.lines).map fun entry => ⟨kind,entry.1,t.origin,Spec.parse entry.2⟩

end Written

section
variable (lines : List Line)

def carriedOver : List Written := (nodesOf lines).flatMap Written.nodes

def misplaced : Report := (carriedOver lines).flatMap fun w => misplacedIn w.lines

def mislabelled : Report := ((typesOf lines).filter fun t => t.label? = none).map Written.labelFault

def contained : Report := ((typesOf lines).filter fun t => t.label? ≠ none).flatMap Written.contained

def declarationsOf : List Declaration := (typesOf lines).flatMap fun t => t.label?.toList.flatMap t.declarations

def unreadable : Report := (declarationsOf lines).filterMap Declaration.fault?

def reported : Report := misplaced lines ++ mislabelled lines ++ contained lines ++ unreadable lines

end

def Schema.declared? (schema : Schema) (kind name : String) : Option Spec :=
  (Table.find? schema kind).bind fun specs => specs.find? name

theorem Schema.declared_declare (schema : Schema) (kind name : String) (spec : Spec) (other key : String) :
    (schema.declare kind name spec).declared? other key =
      if kind = other ∧ name = key then some spec else schema.declared? other key := by
  unfold Schema.declared? Schema.declare
  rw [Table.find_insert]
  by_cases same : other = kind
  · subst same
    rw [if_pos rfl,Option.bind_some,Table.find_insert]
    by_cases own : key = name
    · simp [own]
    · simp [own,Ne.symm own]
      cases Table.find? schema other <;> rfl
  · simp [same,Ne.symm same]

theorem append_interchange {α : Type} (a b c d : List α) : ((a ++ b) ++ (c ++ d)).Perm ((a ++ c) ++ (b ++ d)) := by
  rw [List.append_assoc,List.append_assoc]
  exact (List.perm_append_comm_assoc b c d).append_left a

section
variable (one two : List Line)

theorem attributesOf_append : attributesOf (one ++ two) = attributesOf one ++ attributesOf two := List.filterMap_append

theorem nodesOf_append : nodesOf (one ++ two) = nodesOf one ++ nodesOf two := by
  simp [nodesOf,blocksOf]

theorem typesOf_append : typesOf (one ++ two) = typesOf one ++ typesOf two := by
  simp [typesOf,blocksOf]

theorem carriedOver_append : carriedOver (one ++ two) = carriedOver one ++ carriedOver two := by
  simp [carriedOver,nodesOf_append]

theorem declarationsOf_append : declarationsOf (one ++ two) = declarationsOf one ++ declarationsOf two := by
  simp [declarationsOf,typesOf_append]

theorem reported_append : (reported (one ++ two)).Perm (reported one ++ reported two) := by
  have split : reported (one ++ two) = (misplaced one ++ misplaced two) ++ (mislabelled one ++ mislabelled two) ++
      (contained one ++ contained two) ++ (unreadable one ++ unreadable two) := by
    simp [reported,misplaced,mislabelled,contained,unreadable,carriedOver_append,typesOf_append,declarationsOf_append]
  rw [split]
  exact ((((append_interchange ..).symm.append_right _).trans (append_interchange ..).symm).append_right _).trans
    (append_interchange ..).symm

end

namespace Configuration

theorem addEntry_all (kind : String) (origin : Origin) (entries : List (String × Except SpecError Spec)) (c : Configuration) :
    (entries.foldl (addEntry kind origin) c).root = c.root ∧
      (entries.foldl (addEntry kind origin) c).issues =
        c.issues ++ (entries.map fun entry => ⟨kind,entry.1,origin,entry.2⟩).filterMap Declaration.fault? ∧
      ∀ other key, (entries.foldl (addEntry kind origin) c).schema.declared? other key =
        ((entries.map fun entry => ⟨kind,entry.1,origin,entry.2⟩).filterMap (Declaration.about? other key)).getLast?.or
          (c.schema.declared? other key) := by
  induction entries generalizing c with
  | nil => exact ⟨rfl,(List.append_nil _).symm,fun _ _ => rfl⟩
  | cons entry rest ih =>
    obtain ⟨name,outcome⟩ := entry
    obtain ⟨root,issues,schema⟩ := ih (c.addEntry kind origin (name,outcome))
    rw [List.foldl_cons,List.map_cons]
    cases outcome with
    | error error =>
      refine ⟨root,?_,fun other key => ?_⟩
      · rw [issues]
        exact List.append_assoc ..
      · rw [schema other key,List.filterMap_cons_none (by simp [Declaration.about?,Except.toOption])]
        rfl
    | ok spec =>
      refine ⟨root,issues,fun other key => ?_⟩
      have declares : (c.addEntry kind origin (name,.ok spec)).schema = c.schema.declare kind name spec := rfl
      rw [schema other key,declares,Schema.declared_declare]
      by_cases same : kind = other ∧ name = key
      · have own : Declaration.about? other key ⟨kind,name,origin,.ok spec⟩ = some spec := if_pos same
        rw [if_pos same,List.filterMap_cons_some own,List.getLast?_cons]
        cases List.getLast? _ <;> rfl
      · rw [if_neg same,List.filterMap_cons_none (by simp [Declaration.about?,same])]

structure Adds (c : Configuration) (line : Line) (d : Configuration) : Prop where
  header : (d.root.kind,d.root.name,d.root.origin) = (c.root.kind,c.root.name,c.root.origin)
  attributes : d.root.attributes = c.root.attributes ++ attributesOf [line]
  children : ∃ children, d.root.children = c.root.children ++ children ∧
    List.Forall₂ Carried (nodesOf [line]) children ∧ List.Forall₂ Carried (carriedOver [line]) (wholeBelow children)
  issues : ∃ issues, d.issues = c.issues ++ issues ∧ issues.Perm (reported [line])
  schema : ∀ kind name, d.schema.declared? kind name =
    ((declarationsOf [line]).filterMap (Declaration.about? kind name)).getLast?.or (c.schema.declared? kind name)

section
variable (c : Configuration) (source : Option String)

theorem addAttribute_adds (name : String) (value : Term) :
    c.Adds ⟨source,.attribute name value⟩ (c.add source (.attribute name value)) :=
  ⟨rfl,rfl,⟨[],(List.append_nil _).symm,.nil,wholeBelow_nil ▸ .nil⟩,⟨[],(List.append_nil _).symm,.refl _⟩,fun _ _ => rfl⟩

theorem addNode_adds {kind : String} (plain : kind ≠ typeKind) (labels : List String) (body : Body) :
    c.Adds ⟨source,.block kind labels body⟩ (c.add source (.block kind labels body)) := by
  obtain ⟨attributes,children,whole,issues⟩ := contentOf_carried source body
  have types : typesOf [⟨source,.block kind labels body⟩] = [] := by
    rw [typesOf_block,if_neg plain]
    rfl
  have nodes : nodesOf [⟨source,.block kind labels body⟩] = [⟨source,kind,labels,body⟩] := by
    rw [nodesOf_block,if_neg plain]
    rfl
  have placed : carriedOver [⟨source,.block kind labels body⟩] = ⟨source,kind,labels,body⟩ :: nodesBelow source body := by
    simp [carriedOver,nodes,Written.nodes]
  have own : Carried ⟨source,kind,labels,body⟩ (blockOf source kind labels (contentOf source body)) := by
    unfold blockOf
    rw [attributes]
    exact .intro (decide_eq_false plain) children
  rw [add,if_neg plain]
  refine ⟨rfl,(List.append_nil _).symm,⟨_,rfl,nodes ▸ .cons own .nil,?_⟩,⟨_,rfl,?_⟩,?_⟩
  · rw [placed]
    simpa [wholeBelow,Block.whole,blockOf] using ⟨own,whole⟩
  · simpa [reported,misplaced,mislabelled,contained,unreadable,declarationsOf,placed,types,Written.lines] using issues
  · simp [declarationsOf,types]

theorem specEntries_declarations (kind : String) (t : Written) :
    (specEntries t.body).map (fun entry => (⟨kind,entry.1,t.origin,entry.2⟩ : Declaration)) = t.declarations kind := by
  unfold specEntries Written.declarations attributesOf Written.lines
  rw [List.map_filterMap,List.filterMap_map,List.map_filterMap]
  apply List.filterMap_congr
  rintro (_ | _) _ <;> rfl

theorem nestedBlocks_contained (t : Written) : nestedBlocks t.source t.body = t.contained := by
  unfold nestedBlocks Written.contained blocksOf Written.lines
  rw [List.filterMap_map,List.map_filterMap]
  apply List.filterMap_congr
  rintro (_ | _) _ <;> rfl

theorem addType_adds (labels : List String) (body : Body) :
    c.Adds ⟨source,.block typeKind labels body⟩ (c.add source (.block typeKind labels body)) := by
  have types : typesOf [⟨source,.block typeKind labels body⟩] = [⟨source,typeKind,labels,body⟩] := by
    rw [typesOf_block,if_pos rfl]
    rfl
  have nodes : nodesOf [⟨source,.block typeKind labels body⟩] = [] := by
    rw [nodesOf_block,if_pos rfl]
    rfl
  have placed : carriedOver [⟨source,.block typeKind labels body⟩] = [] := by simp [carriedOver,nodes]
  have none : attributesOf [⟨source,.block typeKind labels body⟩] = [] := rfl
  have below : List.Forall₂ Carried (carriedOver [⟨source,.block typeKind labels body⟩]) (wholeBelow []) := by
    rw [placed,wholeBelow_nil]
    exact .nil
  rw [add,if_pos rfl]
  cases label : Written.label? ⟨source,typeKind,labels,body⟩ with
  | none =>
    have added : c.addType source labels body =
        { c with issues := c.issues ++ [Written.labelFault ⟨source,typeKind,labels,body⟩] } := by
      rcases labels with _ | ⟨kind,_ | ⟨second,more⟩⟩
      · rfl
      · cases label
      · rfl
    rw [added]
    refine ⟨rfl,(List.append_nil _).symm,⟨[],(List.append_nil _).symm,nodes ▸ .nil,below⟩,⟨_,rfl,?_⟩,?_⟩
    · simp [reported,misplaced,mislabelled,contained,unreadable,declarationsOf,placed,types,label]
    · simp [declarationsOf,types,label]
  | some kind =>
    have one : labels = [kind] := by
      rcases labels with _ | ⟨kind,_ | ⟨second,more⟩⟩ <;> cases label
      rfl
    subst one
    let t : Written := ⟨source,typeKind,[kind],body⟩
    obtain ⟨root,issues,schema⟩ := addEntry_all kind t.origin (specEntries body) { c with issues := c.issues ++ t.contained }
    have added : c.addType source [kind] body =
        (specEntries body).foldl (addEntry kind t.origin) { c with issues := c.issues ++ t.contained } := by
      rw [← nestedBlocks_contained t]
      rfl
    rw [specEntries_declarations kind t] at issues schema
    have both : reported [⟨source,.block typeKind [kind] body⟩] =
        t.contained ++ (t.declarations kind).filterMap Declaration.fault? := by
      simp [reported,misplaced,mislabelled,contained,unreadable,declarationsOf,placed,types,label,t]
    rw [added]
    exact ⟨by rw [root],by rw [root,none,List.append_nil],⟨[],by rw [root,List.append_nil],nodes ▸ .nil,below⟩,
      ⟨_,issues.trans (List.append_assoc ..),both ▸ .refl _⟩,by simpa [declarationsOf,types,label] using schema⟩

theorem add_adds (content : Structure) : c.Adds ⟨source,content⟩ (c.add source content) := by
  match content with
  | .attribute name value => exact addAttribute_adds c source name value
  | .block kind labels body =>
    by_cases type : kind = typeKind
    · subst type
      exact addType_adds c source labels body
    · exact addNode_adds c source type labels body

end

-- What a configuration has of the lines of the top level: all of their attributes and blocks at their
-- places, one issue for everything that is left out, and the last of the valid declarations about each
-- attribute.
structure Splits (c : Configuration) (lines : List Line) : Prop where
  header : (c.root.kind,c.root.name,c.root.origin) = ("","",⟨none,"(root)"⟩)
  attributes : c.root.attributes = attributesOf lines
  children : List.Forall₂ Carried (nodesOf lines) c.root.children
  whole : List.Forall₂ Carried (carriedOver lines) (wholeBelow c.root.children)
  issues : c.issues.Perm (misplaced lines ++ mislabelled lines ++ contained lines ++ unreadable lines)
  schema : ∀ kind name, c.schema.declared? kind name =
    ((declarationsOf lines).filterMap (Declaration.about? kind name)).getLast?

theorem Splits.empty : Configuration.empty.Splits [] := ⟨rfl,rfl,.nil,wholeBelow_nil ▸ .nil,.nil,fun _ _ => rfl⟩

theorem Splits.line {c d : Configuration} {lines : List Line} {line : Line} (splits : c.Splits lines)
    (adds : c.Adds line d) : d.Splits (lines ++ [line]) := by
  obtain ⟨children,joined,carried,below⟩ := adds.children
  obtain ⟨issues,logged,own⟩ := adds.issues
  refine ⟨adds.header.trans splits.header,?_,?_,?_,?_,fun kind name => ?_⟩
  · rw [adds.attributes,splits.attributes,attributesOf_append]
  · rw [joined,nodesOf_append]
    exact List.rel_append splits.children carried
  · rw [joined,carriedOver_append,wholeBelow_append]
    exact List.rel_append splits.whole below
  · rw [logged]
    exact (splits.issues.append own).trans (reported_append lines [line]).symm
  · rw [adds.schema,splits.schema,declarationsOf_append,List.filterMap_append,List.getLast?_append]

theorem Splits.document {c : Configuration} {lines : List Line} (splits : c.Splits lines) (d : Document) :
    (c.addDocument d).Splits (lines ++ d.lines) := by
  obtain ⟨source,body⟩ := d
  unfold addDocument Document.lines
  dsimp only
  induction body generalizing c lines with
  | nil => simpa using splits
  | cons content rest ih => simpa using ih (splits.line (c.add_adds source content))

theorem Splits.documents {c : Configuration} {lines : List Line} (splits : c.Splits lines) (documents : List Document) :
    (documents.foldl addDocument c).Splits (lines ++ documents.flatMap Document.lines) := by
  induction documents generalizing c lines with
  | nil => simpa using splits
  | cons d rest ih => simpa using ih (splits.document d)

-- However many documents there are and however deep their blocks go, all of their lines are
-- accounted for.
theorem ofDocuments_splits (documents : List Document) :
    (ofDocuments documents).Splits (documents.flatMap Document.lines) :=
  Splits.empty.documents documents

end Configuration
end DeferredAttributes
