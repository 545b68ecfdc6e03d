import DeferredAttributes.Proofs.Block.Preorder
import DeferredAttributes.Proofs.Resolution.Answer

-- Declaring a block tree gives every block of the preorder its node and every attribute that
-- counts its blank key, in this order.
namespace DeferredAttributes

structure Node.Fits (schema : Schema) (b : Block) (n : Node) : Prop where
  entries : ∀ name, n.entries.find? name =
    (b.attributes.lookup name).map fun _ => .blank (schema.spec b.kind name).type
  valid : n.valid = true ↔ ¬b.Repeats
  version : n.version = 0

structure Node.Blank (n : Node) : Prop where
  entries : n.entries = []
  children : n.children = []
  valid : n.valid = true
  version : n.version = 0

theorem Node.blank_new (name : String) (parent : Option Nat) (origin : Origin) : (Node.new name parent origin).Blank :=
  ⟨rfl,rfl,rfl,rfl⟩

namespace Tree

theorem node_push (t : Tree) (n : Node) (i : Nat) :
    (⟨t.nodes.push n⟩ : Tree).node i = if i = t.nodes.size then n else t.node i := by
  unfold node
  rw [Array.getElem?_push]
  split <;> rfl

def withChild (t : Tree) (parent : Nat) (name : String) (origin : Origin) : Tree :=
  (⟨t.nodes.push (.new name (some parent) origin)⟩ : Tree).modify parent fun n =>
    { n with children := n.children.insert name t.nodes.size }

theorem addChild_withChild (t : Tree) (parent : Nat) (name : String) (origin : Origin) :
    (∃ existing, (t.node parent).children.find? name = some existing ∧
      ∃ error, t.addChild parent name origin = .error error) ∨
    (t.node parent).children.find? name = none ∧
      t.addChild parent name origin = .ok (t.nodes.size,t.withChild parent name origin) := by
  unfold addChild
  cases taken : (t.node parent).children.find? name with
  | some existing => exact .inl ⟨existing,rfl,_,rfl⟩
  | none => exact .inr ⟨rfl,rfl⟩

section
variable {t : Tree} {parent : Nat} (bound : parent < t.nodes.size) (name : String) (origin : Origin)

theorem size_withChild (t : Tree) (parent : Nat) : (t.withChild parent name origin).nodes.size = t.nodes.size + 1 := by
  simp [withChild,size_modify]

include bound

theorem node_withChild (i : Nat) :
    (t.withChild parent name origin).node i =
      if i = t.nodes.size then .new name (some parent) origin
      else if i = parent then
        { t.node parent with children := (t.node parent).children.insert name t.nodes.size }
      else t.node i := by
  unfold withChild
  rw [node_modify,node_push]
  by_cases new : i = t.nodes.size
  · simp [new,Nat.ne_of_gt bound]
  · by_cases here : i = parent
    · subst here
      simp [new,Nat.lt_succ_of_lt bound]
    · simp [new,here]

end
end Tree

namespace Declared
variable {schema : Schema} {kind : String} {origin : Origin} {node : Nat}

structure Attributed (schema : Schema) (kind : String) (node : Nat) (taken : List String)
    (attributes : List (String × String)) (d d' : Declared) : Prop where
  size : d'.tree.nodes.size = d.tree.nodes.size
  frame : ∀ i, i ≠ node → d'.tree.node i = d.tree.node i
  identity : (d'.tree.node node).name = (d.tree.node node).name ∧
    (d'.tree.node node).parent = (d.tree.node node).parent ∧
    (d'.tree.node node).children = (d.tree.node node).children ∧
    (d'.tree.node node).version = (d.tree.node node).version
  entries : ∀ name, (d'.tree.node node).entries.find? name =
    if name ∈ taken then (d.tree.node node).entries.find? name
    else (attributes.lookup name).map fun _ => .blank (schema.spec kind name).type
  valid : (d'.tree.node node).valid = true ↔ (d.tree.node node).valid = true ∧
    (attributes.map Prod.fst).Nodup ∧ ∀ name ∈ attributes.map Prod.fst, name ∉ taken
  assignments : d'.assignments = d.assignments ++
    (firsts Prod.fst taken attributes).map fun entry => schema.assignment kind ⟨node,entry.1⟩ entry.2

theorem addAttribute_repeated (schema : Schema) (kind : String) (origin : Origin) {d : Declared} {name : String} (raw : String)
    (known : d.tree.declares name node = true) :
    (addAttribute schema kind origin node d (name,raw)).tree = d.tree.setValid node false ∧
      (addAttribute schema kind origin node d (name,raw)).assignments = d.assignments := by
  unfold addAttribute
  dsimp only
  rw [if_pos known]
  exact ⟨rfl,rfl⟩

theorem addAttribute_new (schema : Schema) (kind : String) (origin : Origin) {d : Declared} {name : String} (raw : String)
    (fresh : d.tree.declares name node = false) :
    (addAttribute schema kind origin node d (name,raw)).tree = d.tree.modify node (fun n =>
        { n with entries := n.entries.insert name (.blank (schema.spec kind name).type) }) ∧
      (addAttribute schema kind origin node d (name,raw)).assignments =
        d.assignments ++ [schema.assignment kind ⟨node,name⟩ raw] := by
  unfold addAttribute
  dsimp only
  rw [fresh,if_neg Bool.false_ne_true]
  refine ⟨?_,rfl⟩
  have type : (schema.assignment kind ⟨node,name⟩ raw).resolver.type = (schema.spec kind name).type :=
    Resolver.type_ofType _
  dsimp only
  unfold Tree.declare
  apply Tree.modify_congr
  have unknown : ¬(d.tree.node node).entries.contains name = true := by
    unfold Tree.declares at fresh
    simp [fresh]
  rw [if_neg unknown,type]

theorem Attributed.nil {d : Declared} {taken : List String}
    (known : ∀ name, d.tree.declares name node = true ↔ name ∈ taken) :
    Attributed schema kind node taken [] d d := by
  refine ⟨rfl,fun _ _ => rfl,⟨rfl,rfl,rfl,rfl⟩,?_,by simp,by simp [firsts]⟩
  intro name
  split
  · rfl
  · rename_i fresh
    rw [← known] at fresh
    unfold Tree.declares Table.contains at fresh
    simpa using fresh

theorem Attributed.repeated {d m d' : Declared} {taken : List String} {name raw : String}
    {rest : List (String × String)} (bound : node < d.tree.nodes.size) (member : name ∈ taken)
    (tree : m.tree = d.tree.setValid node false) (assignments : m.assignments = d.assignments)
    (later : Attributed schema kind node taken rest m d') :
    Attributed schema kind node taken ((name,raw) :: rest) d d' := by
  have own : m.tree.node node = { d.tree.node node with valid := false } := by
    rw [tree]
    exact Tree.node_modify_self _ bound _
  refine ⟨?_,?_,?_,?_,?_,?_⟩
  · rw [later.size,tree]
    exact Tree.size_modify ..
  · intro i other
    rw [later.frame i other,tree]
    exact Tree.node_modify_other _ other _
  · simpa only [own] using later.identity
  · intro other
    rw [later.entries,own]
    split
    · rfl
    · rename_i fresh
      have different : (other == name) = false := by
        simp only [beq_eq_false_iff_ne]
        rintro rfl
        exact fresh member
      rw [List.lookup_cons,different]
  · rw [later.valid,own]
    simp [member]
  · rw [later.assignments,assignments,firsts,if_pos member]

theorem Attributed.fresh {d m d' : Declared} {taken : List String} {name raw : String}
    {rest : List (String × String)} (bound : node < d.tree.nodes.size) (new : name ∉ taken)
    (tree : m.tree = d.tree.modify node fun n =>
      { n with entries := n.entries.insert name (.blank (schema.spec kind name).type) })
    (assignments : m.assignments = d.assignments ++ [schema.assignment kind ⟨node,name⟩ raw])
    (later : Attributed schema kind node (name :: taken) rest m d') :
    Attributed schema kind node taken ((name,raw) :: rest) d d' := by
  have own : m.tree.node node = { d.tree.node node with
      entries := (d.tree.node node).entries.insert name (.blank (schema.spec kind name).type) } := by
    rw [tree]
    exact Tree.node_modify_self _ bound _
  refine ⟨?_,?_,?_,?_,?_,?_⟩
  · rw [later.size,tree]
    exact Tree.size_modify ..
  · intro i other
    rw [later.frame i other,tree]
    exact Tree.node_modify_other _ other _
  · simpa only [own] using later.identity
  · intro other
    rw [later.entries,own]
    simp only [List.mem_cons,Table.find_insert]
    by_cases same : other = name
    · subst same
      simp [new]
    · have different : (other == name) = false := by simpa using same
      simp only [same,false_or,if_false,List.lookup_cons,different]
  · rw [later.valid,own]
    simp only [List.map_cons,List.nodup_cons,List.mem_cons,forall_eq_or_imp,not_or]
    constructor
    · rintro ⟨valid,distinct,apart⟩
      exact ⟨valid,⟨fun again => (apart name again).1 rfl,distinct⟩,new,fun other member => (apart other member).2⟩
    · rintro ⟨valid,⟨once,distinct⟩,_,apart⟩
      exact ⟨valid,distinct,fun other member => ⟨fun same => once (same ▸ member),apart other member⟩⟩
  · rw [later.assignments,assignments,firsts,if_neg new,List.map_cons,List.append_assoc]
    rfl

theorem addAttributes_attributed (attributes : List (String × String)) {d : Declared} {taken : List String}
    (bound : node < d.tree.nodes.size) (known : ∀ name, d.tree.declares name node = true ↔ name ∈ taken) :
    Attributed schema kind node taken attributes d
      (attributes.foldl (addAttribute schema kind origin node) d) := by
  induction attributes generalizing d taken with
  | nil => exact .nil known
  | cons entry rest ih =>
    obtain ⟨name,raw⟩ := entry
    rw [List.foldl_cons]
    cases declared : d.tree.declares name node with
    | true =>
      obtain ⟨tree,assignments⟩ := addAttribute_repeated schema kind origin raw declared
      refine .repeated bound ((known name).mp declared) tree assignments (ih ?_ ?_)
      · rw [tree]
        exact (Tree.size_modify ..).symm ▸ bound
      · intro other
        rw [tree,(Tree.SameShape.setValid ..).declares]
        exact known other
    | false =>
      obtain ⟨tree,assignments⟩ := addAttribute_new schema kind origin raw declared
      have new : name ∉ taken := by
        rw [← known,declared]
        exact Bool.false_ne_true
      refine .fresh bound new tree assignments (ih ?_ ?_)
      · rw [tree]
        exact (Tree.size_modify ..).symm ▸ bound
      · intro other
        rw [tree,List.mem_cons,← known]
        unfold Tree.declares
        rw [Tree.node_modify_self _ bound,Table.contains_insert]
        simp

-- What declaring the blocks below a node adds: their nodes, after all that are there, and
-- their assignments, after the node's own. Other nodes stay as they are.
structure Adds (schema : Schema) (node : Nat) (own : List Assignment) (blocks : List Block) (d d' : Declared) :
    Prop where
  size : d'.tree.nodes.size = d.tree.nodes.size + blocks.length
  frame : ∀ i, i < d.tree.nodes.size → i ≠ node → d'.tree.node i = d.tree.node i
  identity : (d'.tree.node node).name = (d.tree.node node).name
  fits : ∀ k b, blocks[k]? = some b → (d'.tree.node (d.tree.nodes.size + k)).Fits schema b ∧
    (d'.tree.node (d.tree.nodes.size + k)).name = b.name
  assignments : d'.assignments = d.assignments ++ own ++
    (blocks.zipIdx d.tree.nodes.size).flatMap fun placed => placed.1.assignments schema placed.2

theorem Adds.trans {d m d' : Declared} {one two : List Block} (bound : node < d.tree.nodes.size)
    (first : Adds schema node [] one d m) (second : Adds schema node [] two m d') :
    Adds schema node [] (one ++ two) d d' := by
  have bigger : d.tree.nodes.size ≤ m.tree.nodes.size := by rw [first.size]; omega
  refine ⟨?_,?_,second.identity.trans first.identity,?_,?_⟩
  · rw [second.size,first.size,List.length_append]
    omega
  · intro i old other
    rw [second.frame i (by omega) other,first.frame i old other]
  · intro k b found
    by_cases early : k < one.length
    · rw [List.getElem?_append_left early] at found
      rw [second.frame _ (by rw [first.size]; omega) (by omega)]
      exact first.fits k b found
    · rw [List.getElem?_append_right (by omega)] at found
      have place : d.tree.nodes.size + k = m.tree.nodes.size + (k - one.length) := by
        rw [first.size]
        omega
      rw [place]
      exact second.fits _ b found
  · rw [second.assignments,first.assignments,List.zipIdx_append,List.flatMap_append,first.size]
    simp

theorem Adds.nil (d : Declared) : Adds schema node [] [] d d :=
  ⟨rfl,fun _ _ _ => rfl,rfl,fun _ _ impossible => (by cases impossible),(by simp)⟩

theorem Adds.child {d e : Declared} {child : Block} (bound : node < d.tree.nodes.size)
    (inside : Adds schema d.tree.nodes.size (child.assignments schema d.tree.nodes.size)
      (preorderBelow [] child.children)
      { d with tree := d.tree.withChild node child.name child.origin } e)
    (fits : (e.tree.node d.tree.nodes.size).Fits schema child) :
    Adds schema node [] child.preorder d e ∧
      e.tree.node node = { d.tree.node node with
        children := (d.tree.node node).children.insert child.name d.tree.nodes.size } := by
  have grown := Tree.size_withChild child.name child.origin d.tree node
  have nodes := Tree.node_withChild bound child.name child.origin
  have size := inside.size
  have frame := inside.frame
  have name := inside.identity
  have below := inside.fits
  have assignments := inside.assignments
  dsimp only at size frame name below assignments
  rw [grown] at size frame below assignments
  have self : e.tree.node node = { d.tree.node node with
      children := (d.tree.node node).children.insert child.name d.tree.nodes.size } := by
    rw [frame node (by omega) (by omega),nodes,if_neg (by omega),if_pos rfl]
  rw [Block.preorder_cons]
  refine ⟨⟨?_,?_,by rw [self],?_,?_⟩,self⟩
  · rw [size,List.length_cons]
    omega
  · intro i old other
    rw [frame i (by omega) (by omega),nodes,if_neg (by omega),if_neg other]
  · intro k b found
    cases k with
    | zero =>
      cases found
      rw [nodes,if_pos rfl] at name
      exact ⟨fits,name⟩
    | succ k =>
      have place : d.tree.nodes.size + (k + 1) = d.tree.nodes.size + 1 + k := by omega
      rw [place]
      exact below k b (by simpa using found)
  · rw [assignments,List.zipIdx_cons,List.flatMap_cons,List.append_nil,List.append_assoc]

theorem Attributed.own {d m : Declared} {b : Block} (blank : (d.tree.node node).Blank)
    (attributed : Attributed schema b.kind node [] b.attributes d m) :
    (∀ name, (m.tree.node node).entries.find? name =
        (b.attributes.lookup name).map fun _ => .blank (schema.spec b.kind name).type) ∧
      (m.tree.node node).children = [] ∧ (m.tree.node node).version = 0 ∧
      ((m.tree.node node).valid = true ↔ (b.attributes.map Prod.fst).Nodup) := by
  refine ⟨?_,?_,?_,?_⟩
  · simpa using attributed.entries
  · rw [attributed.identity.2.2.1,blank.children]
  · rw [attributed.identity.2.2.2,blank.version]
  · rw [attributed.valid,blank.valid]
    simp

structure Widened (taken : List String) (children : List Block) (n n' : Node) : Prop where
  entries : n'.entries = n.entries
  version : n'.version = n.version
  valid : n'.valid = true ↔ n.valid = true ∧ (children.map Block.name).Nodup ∧
    ∀ name ∈ children.map Block.name, name ∉ taken

theorem Widened.collided {taken : List String} {child : Block} {rest : List Block} {n m n' : Node}
    (member : child.name ∈ taken) (turned : m = { n with valid := false }) (later : Widened taken rest m n') :
    Widened taken (child :: rest) n n' := by
  refine ⟨?_,?_,?_⟩
  · rw [later.entries,turned]
  · rw [later.version,turned]
  · rw [later.valid,turned]
    simp [member]

theorem Widened.fresh {taken : List String} {child : Block} {rest : List Block} {n m n' : Node} {children : Table Nat}
    (new : child.name ∉ taken) (grown : m = { n with children := children })
    (later : Widened (child.name :: taken) rest m n') : Widened taken (child :: rest) n n' := by
  refine ⟨?_,?_,?_⟩
  · rw [later.entries,grown]
  · rw [later.version,grown]
  · rw [later.valid,grown]
    simp only [List.map_cons,List.nodup_cons,List.mem_cons,forall_eq_or_imp,not_or]
    constructor
    · rintro ⟨valid,distinct,apart⟩
      exact ⟨valid,⟨fun again => (apart _ again).1 rfl,distinct⟩,new,fun other member => (apart other member).2⟩
    · rintro ⟨valid,⟨once,distinct⟩,_,apart⟩
      exact ⟨valid,distinct,fun other member => ⟨fun same => once (same ▸ member),apart other member⟩⟩

mutual

theorem addBlock_adds (schema : Schema) (b : Block) (d : Declared) (node : Nat) (bound : node < d.tree.nodes.size)
    (blank : (d.tree.node node).Blank) :
    Adds schema node (b.assignments schema node) (preorderBelow [] b.children) d (addBlock schema d node b) ∧
      ((addBlock schema d node b).tree.node node).Fits schema b := by
  obtain ⟨kind,name,origin,attributes,children⟩ := b
  unfold addBlock
  have attributed : Attributed schema kind node [] attributes d
      (attributes.foldl (addAttribute schema kind origin node) d) := by
    apply addAttributes_attributed attributes bound
    intro name
    unfold Tree.declares
    simp [blank.entries,Table.contains,Table.find?]
  obtain ⟨entries,none,version,valid⟩ := attributed.own (b := ⟨kind,name,origin,attributes,children⟩) blank
  generalize attributes.foldl (addAttribute schema kind origin node) d = m at *
  obtain ⟨adds,widened⟩ := addChildren_adds schema children m node []
    (attributed.size.symm ▸ bound) (fun name => by simp [none,Table.contains,Table.find?])
  refine ⟨⟨?_,?_,?_,?_,?_⟩,⟨?_,?_,?_⟩⟩
  · rw [adds.size,attributed.size]
  · intro i old other
    rw [adds.frame i (attributed.size.symm ▸ old) other,attributed.frame i other]
  · rw [adds.identity,attributed.identity.1]
  · rw [← attributed.size]
    exact adds.fits
  · rw [adds.assignments,attributed.assignments,attributed.size,List.append_nil]
    rfl
  · rw [widened.entries]
    exact entries
  · rw [widened.valid,valid]
    simp [Block.Repeats]
  · rw [widened.version,version]

theorem addChildren_adds (schema : Schema) (children : List Block) (d : Declared) (node : Nat) (taken : List String)
    (bound : node < d.tree.nodes.size)
    (known : ∀ name, (d.tree.node node).children.contains name = true ↔ name ∈ taken) :
    Adds schema node [] (preorderBelow taken children) d (addChildren schema d node children) ∧
      Widened taken children (d.tree.node node) ((addChildren schema d node children).tree.node node) := by
  match children with
  | [] =>
    unfold addChildren preorderBelow
    exact ⟨.nil d,rfl,rfl,by simp⟩
  | child :: rest =>
    unfold addChildren preorderBelow
    rcases d.tree.addChild_withChild node child.name child.origin with
      ⟨existing,found,error,failed⟩ | ⟨none,added⟩
    · have member : child.name ∈ taken := by
        rw [← known,Table.contains,found]
        rfl
      have own : (d.collision node child).tree.node node = { d.tree.node node with valid := false } :=
        Tree.node_modify_self _ bound _
      have shape := Tree.SameShape.setValid d.tree node false
      obtain ⟨adds,widened⟩ := addChildren_adds schema rest (d.collision node child) node taken
        (shape.size.symm ▸ bound) (by rw [own]; exact known)
      rw [failed,if_pos member]
      have same : (d.collision node child).tree.nodes.size = d.tree.nodes.size := shape.size
      refine ⟨⟨?_,?_,?_,?_,?_⟩,widened.collided member own⟩
      · rw [adds.size,same]
      · intro i old other
        rw [adds.frame i (same.symm ▸ old) other]
        exact Tree.node_modify_other _ other _
      · rw [adds.identity,own]
      · rw [← same]
        exact adds.fits
      · rw [adds.assignments,same]
        rfl
    · have new : child.name ∉ taken := by
        rw [← known,Table.contains,none]
        exact Bool.false_ne_true
      have grown := Tree.size_withChild child.name child.origin d.tree node
      have nodes := Tree.node_withChild bound child.name child.origin
      obtain ⟨inside,fits⟩ := addBlock_adds schema child
        { d with tree := d.tree.withChild node child.name child.origin } d.tree.nodes.size
        (by rw [grown]; omega) (by rw [nodes,if_pos rfl]; exact Node.blank_new ..)
      obtain ⟨first,self⟩ := Adds.child bound inside fits
      rw [added,if_neg new]
      dsimp only
      generalize addBlock schema _ d.tree.nodes.size child = e at *
      have bigger : node < e.tree.nodes.size := by
        rw [first.size]
        omega
      obtain ⟨adds,widened⟩ := addChildren_adds schema rest e node (child.name :: taken)
        bigger (by
          intro name
          rw [self,Table.contains_insert,List.mem_cons,← known]
          simp)
      exact ⟨first.trans bound adds,widened.fresh new self⟩

end

end Declared
end DeferredAttributes
