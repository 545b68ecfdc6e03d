import DeferredAttributes.Proofs.Block.Declared

-- A block tree in which one attribute gets another text. The nodes and the keys that it
-- declares stay the same, and so do all other attributes.
namespace DeferredAttributes

def Key.retext (key : Key) (raw : String) (i : Nat) (entry : String × String) : String × String :=
  if (⟨i,entry.1⟩ : Key) = key then (entry.1,raw) else entry

mutual

-- The block at hand has the node of number `i`. A child that repeats a name has none.
def Block.rewriteFrom (key : Key) (raw : String) (i : Nat) : Block → Block
  | ⟨kind,name,origin,attributes,children⟩ =>
    ⟨kind,name,origin,attributes.map (key.retext raw i),rewriteBelow key raw [] (i + 1) children⟩

def rewriteBelow (key : Key) (raw : String) (taken : List String) (i : Nat) : List Block → List Block
  | [] => []
  | child :: rest =>
    if child.name ∈ taken then child :: rewriteBelow key raw taken i rest
    else child.rewriteFrom key raw i :: rewriteBelow key raw (child.name :: taken) (i + child.preorder.length) rest

end

def Block.rewrite (root : Block) (key : Key) (raw : String) : Block := root.rewriteFrom key raw 0

mutual

def Block.outline : Block → Block
  | ⟨kind,name,origin,attributes,children⟩ =>
    ⟨kind,name,origin,attributes.map fun entry => (entry.1,""),outlines children⟩

def outlines : List Block → List Block
  | [] => []
  | child :: rest => child.outline :: outlines rest

end

-- The text of an attribute that counts: the first, where the key is written twice.
def Block.text? (root : Block) (key : Key) : Option String :=
  (root.preorder[key.node]?).bind fun b => b.attributes.lookup key.name

section
variable (key : Key) (raw : String)

theorem Block.name_rewriteFrom (i : Nat) (b : Block) : (b.rewriteFrom key raw i).name = b.name := by
  cases b
  unfold rewriteFrom
  rfl

theorem Block.kind_rewriteFrom (i : Nat) (b : Block) : (b.rewriteFrom key raw i).kind = b.kind := by
  cases b
  unfold rewriteFrom
  rfl

theorem Block.attributes_rewriteFrom (i : Nat) (b : Block) :
    (b.rewriteFrom key raw i).attributes = b.attributes.map (key.retext raw i) := by
  cases b
  unfold rewriteFrom
  rfl

theorem Key.retext_name (i : Nat) (entry : String × String) : (key.retext raw i entry).1 = entry.1 := by
  unfold retext
  split <;> rfl

theorem Key.lookup_retext (other : Key) (attributes : List (String × String)) :
    (attributes.map (key.retext raw other.node)).lookup other.name =
      if other = key then (attributes.lookup other.name).map fun _ => raw else attributes.lookup other.name := by
  induction attributes with
  | nil => simp
  | cons entry rest ih =>
    obtain ⟨name,text⟩ := entry
    have kept := key.retext_name raw other.node (name,text)
    rw [List.map_cons,List.lookup_cons,List.lookup_cons,kept,ih]
    cases same : other.name == name with
    | false => rfl
    | true =>
      have here : (⟨other.node,name⟩ : Key) = other := by rw [← beq_iff_eq.mp same]
      unfold retext
      simp only [here]
      split <;> rfl

mutual

theorem Block.outline_rewriteFrom (i : Nat) (b : Block) : (b.rewriteFrom key raw i).outline = b.outline := by
  obtain ⟨kind,name,origin,attributes,children⟩ := b
  have names : (attributes.map (key.retext raw i)).map (fun entry => (entry.1,"")) =
      attributes.map fun entry => (entry.1,"") := by
    rw [List.map_map]
    exact List.map_congr_left fun entry _ => by simp only [Function.comp_apply,Key.retext_name]
  rw [Block.rewriteFrom,Block.outline,Block.outline,names,outlines_rewriteBelow [] (i + 1) children]

theorem outlines_rewriteBelow (taken : List String) (i : Nat) (children : List Block) :
    outlines (rewriteBelow key raw taken i children) = outlines children := by
  match children with
  | [] => rw [rewriteBelow]
  | child :: rest =>
    rw [rewriteBelow]
    split
    · rw [outlines,outlines,outlines_rewriteBelow taken i rest]
    · rw [outlines,outlines,Block.outline_rewriteFrom i child,outlines_rewriteBelow _ _ rest]

end

mutual

theorem Block.preorder_rewriteFrom (i : Nat) (b : Block) :
    (b.rewriteFrom key raw i).preorder =
      (b.preorder.zipIdx i).map fun placed => placed.1.rewriteFrom key raw placed.2 := by
  obtain ⟨kind,name,origin,attributes,children⟩ := b
  rw [Block.rewriteFrom,Block.preorder,Block.preorder,List.zipIdx_cons,List.map_cons,Block.rewriteFrom,
    preorderBelow_rewriteBelow [] (i + 1) children]

theorem preorderBelow_rewriteBelow (taken : List String) (i : Nat) (children : List Block) :
    preorderBelow taken (rewriteBelow key raw taken i children) =
      ((preorderBelow taken children).zipIdx i).map fun placed => placed.1.rewriteFrom key raw placed.2 := by
  match children with
  | [] => simp [rewriteBelow,preorderBelow]
  | child :: rest =>
    rw [rewriteBelow,preorderBelow]
    by_cases repeated : child.name ∈ taken
    · rw [if_pos repeated,if_pos repeated,preorderBelow,if_pos repeated]
      exact preorderBelow_rewriteBelow taken i rest
    · rw [if_neg repeated,if_neg repeated,preorderBelow,Block.name_rewriteFrom,if_neg repeated,
        Block.preorder_rewriteFrom i child,preorderBelow_rewriteBelow _ _ rest,List.zipIdx_append,List.map_append]

end

theorem Block.preorder_rewrite (root : Block) (i : Nat) :
    (root.rewrite key raw).preorder[i]? = (root.preorder[i]?).map fun b => b.rewriteFrom key raw i := by
  unfold rewrite
  rw [preorder_rewriteFrom,List.getElem?_map,List.getElem?_zipIdx]
  cases root.preorder[i]? <;> simp

theorem Block.text_rewrite (root : Block) (other : Key) :
    (root.rewrite key raw).text? other =
      if other = key then (root.text? other).map fun _ => raw else root.text? other := by
  unfold text?
  rw [preorder_rewrite]
  cases root.preorder[other.node]? with
  | none => simp
  | some b => simp only [Option.map_some,Option.bind_some,attributes_rewriteFrom,Key.lookup_retext]

end

namespace Declared
variable {schema : Schema}

theorem addAttribute_tree (kind : String) (origin : Origin) (node : Nat) {d d' : Declared} (same : d'.tree = d.tree)
    (name raw raw' : String) :
    (addAttribute schema kind origin node d' (name,raw')).tree = (addAttribute schema kind origin node d (name,raw)).tree := by
  cases declared : d.tree.declares name node with
  | true =>
    rw [(addAttribute_repeated schema kind origin raw declared).1,
      (addAttribute_repeated schema kind origin raw' (same ▸ declared)).1,same]
  | false =>
    rw [(addAttribute_new schema kind origin raw declared).1,
      (addAttribute_new schema kind origin raw' (same ▸ declared)).1,same]

theorem addAttributes_tree (kind : String) (origin : Origin) (node : Nat) (attributes : List (String × String))
    {d d' : Declared} (same : d'.tree = d.tree) :
    ((attributes.map fun entry => (entry.1,"")).foldl (addAttribute schema kind origin node) d').tree =
      (attributes.foldl (addAttribute schema kind origin node) d).tree := by
  induction attributes generalizing d d' with
  | nil => exact same
  | cons entry rest ih =>
    rw [List.map_cons,List.foldl_cons,List.foldl_cons]
    exact ih (addAttribute_tree kind origin node same entry.1 entry.2 "")

mutual

theorem addBlock_outline (node : Nat) (b : Block) {d d' : Declared} (same : d'.tree = d.tree) :
    (addBlock schema d' node b.outline).tree = (addBlock schema d node b).tree := by
  obtain ⟨kind,name,origin,attributes,children⟩ := b
  rw [Block.outline,addBlock,addBlock]
  exact addChildren_outlines node children (addAttributes_tree kind origin node attributes same)

theorem addChildren_outlines (node : Nat) (children : List Block) {d d' : Declared} (same : d'.tree = d.tree) :
    (addChildren schema d' node (outlines children)).tree = (addChildren schema d node children).tree := by
  match children with
  | [] =>
    rw [outlines,addChildren,addChildren]
    exact same
  | child :: rest =>
    have known : child.outline.name = child.name ∧ child.outline.origin = child.origin := by
      cases child
      rw [Block.outline]
      exact ⟨rfl,rfl⟩
    rw [outlines,addChildren,addChildren,known.1,known.2,same]
    cases d.tree.addChild node child.name child.origin with
    | error error =>
      refine addChildren_outlines node rest ?_
      unfold collision
      rw [same]
    | ok grown => exact addChildren_outlines node rest (addBlock_outline grown.1 child rfl)

end

theorem ofBlock_rewrite (schema : Schema) (root : Block) (key : Key) (raw : String) :
    (ofBlock schema (root.rewrite key raw)).tree = (ofBlock schema root).tree := by
  have origin : (root.rewrite key raw).origin = root.origin := by
    cases root
    unfold Block.rewrite Block.rewriteFrom
    rfl
  let empty : Declared := ⟨.new root.origin,[],[]⟩
  have one : (addBlock schema empty 0 (root.rewrite key raw).outline).tree =
      (addBlock schema empty 0 (root.rewrite key raw)).tree := addBlock_outline 0 _ rfl
  have two : (addBlock schema empty 0 root.outline).tree = (addBlock schema empty 0 root).tree :=
    addBlock_outline 0 _ rfl
  have outline : (root.rewrite key raw).outline = root.outline := root.outline_rewriteFrom key raw 0
  unfold ofBlock
  rw [origin]
  exact one.symm.trans (outline ▸ two)

theorem mem_ofBlock_text {root : Block} {a : Assignment} :
    a ∈ (ofBlock schema root).assignments ↔ root.text? a.target = some a.raw ∧
      ∃ b, root.preorder[a.target.node]? = some b ∧ a = schema.assignment b.kind a.target a.raw := by
  rw [mem_ofBlock]
  unfold Block.text?
  constructor
  · rintro ⟨b,placed,written,equal⟩
    exact ⟨by rw [placed]; exact written,b,placed,equal⟩
  · rintro ⟨written,b,placed,equal⟩
    rw [placed] at written
    exact ⟨b,placed,written,equal⟩

theorem mem_rewrite {root : Block} {key : Key} {raw : String} {a : Assignment} (other : a.target ≠ key) :
    a ∈ (ofBlock schema (root.rewrite key raw)).assignments ↔ a ∈ (ofBlock schema root).assignments := by
  rw [mem_ofBlock_text,mem_ofBlock_text,Block.text_rewrite,if_neg other,Block.preorder_rewrite]
  apply and_congr_right
  intro _
  cases root.preorder[a.target.node]? with
  | none => simp
  | some b => simp [Block.kind_rewriteFrom]

end Declared
end DeferredAttributes
