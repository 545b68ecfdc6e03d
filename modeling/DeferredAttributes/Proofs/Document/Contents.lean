import Mathlib.Algebra.Order.Group.Nat
import Mathlib.Data.List.Forall2
import DeferredAttributes.Document.Configuration

-- What a block of a document becomes. Its lines are taken by what they are: attributes, blocks that
-- become nodes, and type blocks, which are left out and reported wherever they stand inside a block.
namespace DeferredAttributes
open Hcl

structure Line where
  source : Option String
  content : Structure

structure Written where
  source : Option String
  kind : String
  labels : List String
  body : Body

def Document.lines (d : Document) : List Line := d.body.map (Line.mk d.source)

namespace Line

def attribute? : Line → Option (String × String)
  | ⟨_,.attribute name value⟩ => some (name,value.raw)
  | ⟨_,.block ..⟩ => none

def block? : Line → Option Written
  | ⟨_,.attribute ..⟩ => none
  | ⟨source,.block kind labels body⟩ => some ⟨source,kind,labels,body⟩

end Line

namespace Written

def lines (w : Written) : List Line := w.body.map (Line.mk w.source)

def origin (w : Written) : Origin := ⟨w.source,declaration w.kind w.labels⟩

def isType (w : Written) : Bool := w.kind = typeKind

end Written

section
variable (lines : List Line)

def attributesOf : List (String × String) := lines.filterMap Line.attribute?

def blocksOf : List Written := lines.filterMap Line.block?

def nodesOf : List Written := (blocksOf lines).filter fun w => !w.isType

def typesOf : List Written := (blocksOf lines).filter Written.isType

end

-- A block of the tree holds what is written: all the attributes, and a block for every block inside
-- that is no type block, in the same order.
inductive Carried : Written → Block → Prop where
  | intro {w : Written} {children : List Block} (plain : w.isType = false)
      (inside : List.Forall₂ Carried (nodesOf w.lines) children) :
      Carried w ⟨w.kind,blockName w.kind w.labels,w.origin,attributesOf w.lines,children⟩

def nodesBelow (source : Option String) : Body → List Written
  | [] => []
  | .attribute .. :: rest => nodesBelow source rest
  | .block kind labels body :: rest =>
    if kind = typeKind then nodesBelow source rest
    else ⟨source,kind,labels,body⟩ :: (nodesBelow source body ++ nodesBelow source rest)

def Written.nodes (w : Written) : List Written := w :: nodesBelow w.source w.body

mutual

def Block.whole : Block → List Block
  | ⟨kind,name,origin,attributes,children⟩ => ⟨kind,name,origin,attributes,children⟩ :: wholeBelow children

def wholeBelow : List Block → List Block
  | [] => []
  | child :: rest => child.whole ++ wholeBelow rest

end

theorem wholeBelow_nil : wholeBelow [] = [] := by
  unfold wholeBelow
  rfl

theorem wholeBelow_append (one two : List Block) : wholeBelow (one ++ two) = wholeBelow one ++ wholeBelow two := by
  induction one with
  | nil => rw [wholeBelow_nil,List.nil_append,List.nil_append]
  | cons child rest ih =>
    rw [List.cons_append,wholeBelow,wholeBelow,ih,List.append_assoc]

def misplacedIn (lines : List Line) : Report := (typesOf lines).map fun t => .invalidBlock t.origin .notAtTopLevel

section
variable (source : Option String) (kind : String) (labels : List String) (body : Body) (lines : List Line)

theorem blocksOf_block :
    blocksOf (⟨source,.block kind labels body⟩ :: lines) = ⟨source,kind,labels,body⟩ :: blocksOf lines := rfl

theorem nodesOf_block : nodesOf (⟨source,.block kind labels body⟩ :: lines) =
    if kind = typeKind then nodesOf lines else ⟨source,kind,labels,body⟩ :: nodesOf lines := by
  unfold nodesOf
  rw [blocksOf_block,List.filter_cons]
  by_cases type : kind = typeKind <;> simp [Written.isType,type]

theorem typesOf_block : typesOf (⟨source,.block kind labels body⟩ :: lines) =
    if kind = typeKind then ⟨source,kind,labels,body⟩ :: typesOf lines else typesOf lines := by
  unfold typesOf
  rw [blocksOf_block,List.filter_cons]
  by_cases type : kind = typeKind <;> simp [Written.isType,type]

end

theorem contentOf_carried (source : Option String) (body : Body) :
    (contentOf source body).attributes = attributesOf (body.map (Line.mk source)) ∧
      List.Forall₂ Carried (nodesOf (body.map (Line.mk source))) (contentOf source body).children ∧
      List.Forall₂ Carried (nodesBelow source body) (wholeBelow (contentOf source body).children) ∧
      (contentOf source body).issues.Perm
        (misplacedIn (body.map (Line.mk source)) ++ (nodesBelow source body).flatMap fun w => misplacedIn w.lines) := by
  fun_induction contentOf source body with
  | case1 =>
    unfold nodesBelow wholeBelow
    exact ⟨rfl,.nil,.nil,.refl _⟩
  | case2 name value rest others ih =>
    obtain ⟨attributes,children,whole,issues⟩ := ih
    unfold nodesBelow
    exact ⟨congrArg (_ :: ·) attributes,children,whole,issues⟩
  | case3 labels body rest others ih =>
    obtain ⟨attributes,children,whole,issues⟩ := ih
    unfold nodesBelow misplacedIn
    rw [List.map_cons,nodesOf_block,typesOf_block,if_pos rfl,if_pos rfl,if_pos rfl]
    exact ⟨attributes,children,whole,issues.cons _⟩
  | case4 kind labels body rest others plain inner ihRest ihBody =>
    obtain ⟨attributes,children,whole,issues⟩ := ihRest
    obtain ⟨inside,below,deeper,found⟩ := ihBody
    have own : Carried ⟨source,kind,labels,body⟩ (blockOf source kind labels inner) := by
      unfold blockOf
      rw [inside]
      exact .intro (decide_eq_false plain) below
    have passed : misplacedIn ((⟨source,.block kind labels body⟩ : Line) :: rest.map (Line.mk source)) =
        misplacedIn (rest.map (Line.mk source)) := by rw [misplacedIn,typesOf_block,if_neg plain]; rfl
    have lines : Written.lines ⟨source,kind,labels,body⟩ = body.map (Line.mk source) := rfl
    unfold nodesBelow wholeBelow
    rw [List.map_cons,nodesOf_block,passed,if_neg plain,if_neg plain,List.flatMap_cons,List.flatMap_append,lines]
    refine ⟨attributes,.cons own children,.cons own (List.rel_append deeper whole),(found.append issues).trans ?_⟩
    rw [List.append_assoc (misplacedIn _)]
    simpa only [List.append_assoc] using List.perm_append_comm_assoc (misplacedIn (body.map (Line.mk source)) ++
      (nodesBelow source body).flatMap fun w => misplacedIn w.lines) (misplacedIn (rest.map (Line.mk source))) _

end DeferredAttributes
