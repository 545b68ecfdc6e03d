import DeferredAttributes.Proofs.Block.Additional
import DeferredAttributes.Proofs.Block.Placed
import DeferredAttributes.Proofs.Block.Repetitions

-- Declaring covers a block tree: what stands in it either gets a node or a key, or the report says
-- once which earlier name it repeats, or it is inside a block of which the report says so.
namespace DeferredAttributes

def repeatedAttribute (t : Tree) (i : Nat) (origin : Origin) (again : (String × String) × (String × String)) : Issue :=
  .duplicateAttribute (Declared.below t i again.1.1) origin

def repeatedChild (t : Tree) (i : Nat) (again : Block × Block) : Issue :=
  .duplicateBlock (Declared.below t i again.1.name) again.1.origin again.2.origin

def Block.duplicates (t : Tree) (i : Nat) (b : Block) : Report :=
  (repetitions Prod.fst b.attributes).map (repeatedAttribute t i b.origin) ++
    (repetitions Block.name b.children).map (repeatedChild t i)

theorem Tree.declares_modify {t : Tree} {change : Node → Node} {node : Nat} (bound : node < t.nodes.size) (name : String) :
    (t.modify node change).declares name node = (change (t.node node)).entries.contains name := by
  unfold declares
  rw [node_modify_self _ bound]

namespace Declared
variable {schema : Schema} {d : Declared} {t : Tree} {node : Nat}

theorem below_kept (kept : d.tree.Kept t) (bound : node < d.tree.nodes.size) (name : String) :
    below d.tree node name = below t node name := by
  unfold below
  rw [kept.path bound]

theorem later_kept (schema : Schema) (t : Tree) : Kept schema fun d => t.Kept d.tree := by
  refine ⟨?_,?_,?_⟩
  · intro d kind origin node entry _ before
    exact before.trans (addAttributes_nodes schema kind origin node [entry] d).kept
  · intro d node child before
    exact before.trans (Tree.SameShape.setValid ..).sameNodes.kept
  · intro d node name origin bound _ before
    exact before.trans (.withChild bound name origin)

theorem addAttributes_issues (schema : Schema) (kind : String) (origin : Origin) (attributes : List (String × String))
    {seen : List (String × String)} (bound : node < d.tree.nodes.size)
    (known : ∀ name, d.tree.declares name node = true ↔ name ∈ seen.map Prod.fst) (kept : d.tree.Kept t) :
    (attributes.foldl (addAttribute schema kind origin node) d).issues =
      d.issues ++ (repetitionsFrom Prod.fst seen attributes).map (repeatedAttribute t node origin) := by
  induction attributes generalizing d seen with
  | nil => exact (List.append_nil _).symm
  | cons entry rest ih =>
    obtain ⟨name,raw⟩ := entry
    have nodes := addAttributes_nodes schema kind origin node [(name,raw)] d
    have later := nodes.symm.kept.trans kept
    have inside : node < (addAttribute schema kind origin node d (name,raw)).tree.nodes.size := nodes.size.symm ▸ bound
    rw [List.foldl_cons]
    unfold repetitionsFrom
    cases found : seen.find? fun other => other.1 == name with
    | some first =>
      have declared := (known name).mpr (find_name_some found).1
      obtain ⟨tree,_⟩ := addAttribute_repeated schema kind origin raw declared
      have issues : (addAttribute schema kind origin node d (name,raw)).issues =
          d.issues ++ [repeatedAttribute t node origin ((name,raw),first)] := by
        unfold addAttribute repeatedAttribute
        rw [← below_kept kept bound]
        exact congrArg Declared.issues (if_pos declared)
      rw [ih inside (fun other => ?_) later,issues,List.append_assoc]
      · rfl
      · rw [tree,(Tree.SameShape.setValid ..).declares]
        exact known other
    | none =>
      have fresh : d.tree.declares name node = false := by
        rw [← Bool.not_eq_true,known]
        exact find_name_none.mp found
      obtain ⟨tree,_⟩ := addAttribute_new schema kind origin raw fresh
      have issues : (addAttribute schema kind origin node d (name,raw)).issues = d.issues := by
        unfold addAttribute
        dsimp only
        rw [fresh]
        rfl
      rw [@ih _ ((name,raw) :: seen) inside (fun other => ?_) later,issues]
      rw [tree,Tree.declares_modify bound,Table.contains_insert,List.map_cons,List.mem_cons,← known]
      unfold Tree.declares
      simp

structure Knows (t : Tree) (node : Nat) (seen : List Block) : Prop where
  old : ∀ name, (t.node node).children.contains name = true ↔ name ∈ seen.map Block.name
  origin : ∀ name first, (seen.find? fun b => b.name == name) = some first →
    ∃ id, (t.node node).children.find? name = some id ∧ id < t.nodes.size ∧ (t.node id).origin = first.origin

theorem Knows.kept {t' : Tree} {seen : List Block} (knows : Knows t node seen) (kept : t.Kept t')
    (same : (t'.node node).children = (t.node node).children) : Knows t' node seen := by
  refine ⟨same.symm ▸ knows.old,fun name first found => ?_⟩
  obtain ⟨id,known,bound,origin⟩ := knows.origin name first found
  rw [same]
  exact ⟨id,known,Nat.lt_of_lt_of_le bound kept.size,(kept.origin id bound).trans origin⟩

-- What declaring the blocks below a node makes of their nodes, and of the report. The tree may have
-- grown since then.
structure Places (t : Tree) (node start : Nat) (own : Report) (placed : List (List Nat × Block))
    (before after : Report) : Prop where
  origin : ∀ m way b, placed[m]? = some (way,b) → (t.node (start + m)).origin = b.origin
  parent : ∀ m way b up k, placed[m]? = some (way,b) → way = up ++ [k] →
    up = [] ∧ (t.node (start + m)).parent = some node ∨
      ∃ j c, placed[j]? = some (up,c) ∧ (t.node (start + m)).parent = some (start + j)
  issues : after.Perm (before ++ own ++
    ((placed.map Prod.snd).zipIdx start).flatMap fun numbered => numbered.1.duplicates t numbered.2)

theorem Places.nil (t : Tree) (node start : Nat) (before : Report) : Places t node start [] [] before before :=
  ⟨fun _ _ _ impossible => (by cases impossible),fun _ _ _ _ _ impossible => (by cases impossible),by simp⟩

theorem Places.append {start : Nat} {own : Report} {one two : List (List Nat × Block)} {before middle after : Report}
    (first : Places t node start [] one before middle) (second : Places t node (start + one.length) own two middle after) :
    Places t node start own (one ++ two) before after := by
  refine ⟨?_,?_,?_⟩
  · intro m way b found
    by_cases early : m < one.length
    · rw [List.getElem?_append_left early] at found
      exact first.origin m way b found
    · rw [List.getElem?_append_right (by omega)] at found
      have origin := second.origin _ way b found
      rwa [show start + one.length + (m - one.length) = start + m by omega] at origin
  · intro m way b up k found split
    by_cases early : m < one.length
    · rw [List.getElem?_append_left early] at found
      refine (first.parent m way b up k found split).imp_right ?_
      rintro ⟨j,c,above,parent⟩
      have bound : j < one.length := (List.getElem?_eq_some_iff.mp above).1
      exact ⟨j,c,by rwa [List.getElem?_append_left bound],parent⟩
    · rw [List.getElem?_append_right (by omega)] at found
      have parent := second.parent _ way b up k found split
      rw [show start + one.length + (m - one.length) = start + m by omega] at parent
      refine parent.imp_right ?_
      rintro ⟨j,c,above,parent⟩
      refine ⟨one.length + j,c,?_,by rw [parent,Nat.add_assoc]⟩
      rwa [List.getElem?_append_right (by omega),Nat.add_sub_cancel_left]
  · rw [List.map_append,List.zipIdx_append,List.flatMap_append,List.length_map]
    refine second.issues.trans (((first.issues.append_right _).append_right _).trans ?_)
    rw [List.append_nil]
    simp only [List.append_assoc]
    exact (List.perm_append_comm_assoc _ _ _).append_left _

theorem Places.above {own before after : Report} {b : Block}
    (below : Places t node (node + 1) own (placedBelow [] 0 b.children) before after) {m : Nat} {way up : List Nat}
    {c : Block} {k : Nat} (found : b.placed[m]? = some (way,c)) (split : way = up ++ [k]) :
    ∃ j e, b.placed[j]? = some (up,e) ∧ (t.node (node + m)).parent = some (node + j) := by
  rw [Block.placed_cons] at found ⊢
  cases m with
  | zero =>
    cases found
    simp at split
  | succ m =>
    rw [Nat.add_comm m 1,← Nat.add_assoc]
    rcases below.parent m way c up k found split with ⟨rfl,parent⟩ | ⟨j,e,above,parent⟩
    · exact ⟨0,b,rfl,parent⟩
    · exact ⟨j + 1,e,above,by rw [parent,Nat.add_comm j 1,Nat.add_assoc]⟩

theorem Places.child {start k : Nat} {before after : Report} {child : Block} (origin : (t.node start).origin = child.origin)
    (parent : (t.node start).parent = some node)
    (below : Places t start (start + 1) (child.duplicates t start) (placedBelow [] 0 child.children) before after) :
    Places t node start [] (child.placed.map fun placed => (k :: placed.1,placed.2)) before after := by
  have inner : ∀ (m : Nat) (way : List Nat) (b : Block),
      (child.placed.map fun placed => (k :: placed.1,placed.2))[m]? = some (way,b) →
        ∃ later, way = k :: later ∧ child.placed[m]? = some (later,b) := by
    intro m way b found
    rw [List.getElem?_map,Option.map_eq_some_iff] at found
    obtain ⟨⟨later,c⟩,found,same⟩ := found
    cases same
    exact ⟨later,rfl,found⟩
  refine ⟨?_,?_,?_⟩
  · intro m way b found
    obtain ⟨later,_,placed⟩ := inner m way b found
    rw [Block.placed_cons] at placed
    cases m with
    | zero =>
      cases placed
      exact origin
    | succ m =>
      rw [Nat.add_comm m 1,← Nat.add_assoc]
      exact below.origin m later b placed
  · intro m way b up last found split
    obtain ⟨later,rfl,placed⟩ := inner m way b found
    cases up with
    | nil =>
      left
      cases split
      rw [Block.placed_cons] at placed
      cases m with
      | zero => exact ⟨rfl,parent⟩
      | succ m =>
        -- a block below the child has a longer way
        obtain ⟨j,more,stepped⟩ := placedBelow_stepped (List.mem_map.mpr ⟨_,List.mem_of_getElem? placed,rfl⟩)
        cases stepped
    | cons first up =>
      right
      obtain ⟨rfl,behind⟩ := List.cons.inj split
      obtain ⟨j,e,above,parent⟩ := below.above placed behind
      refine ⟨j,e,?_,parent⟩
      rw [List.getElem?_map,above]
      rfl
  · have blocks : (child.placed.map fun placed => (k :: placed.1,placed.2)).map Prod.snd =
        child :: (placedBelow [] 0 child.children).map Prod.snd := by
      rw [List.map_map,Block.placed_cons]
      rfl
    rw [blocks,List.zipIdx_cons,List.flatMap_cons,List.append_nil,← List.append_assoc]
    exact below.issues

theorem Places.behind {start : Nat} {first own : Report} {placed : List (List Nat × Block)} {before after : Report}
    (places : Places t node start own placed (before ++ first) after) :
    Places t node start (first ++ own) placed before after :=
  ⟨places.origin,places.parent,by rw [← List.append_assoc]; exact places.issues⟩

theorem Knows.taken {seen : List Block} (knows : Knows d.tree node seen) {child : Block} {existing : Nat}
    (found : (d.tree.node node).children.find? child.name = some existing) (bound : node < d.tree.nodes.size)
    (kept : d.tree.Kept t) :
    ∃ first, (seen.find? fun b => b.name == child.name) = some first ∧
      (d.collision node child).issues = d.issues ++ [repeatedChild t node (child,first)] := by
  have old : child.name ∈ seen.map Block.name := by
    rw [← knows.old,Table.contains,found]
    rfl
  cases again : seen.find? fun b => b.name == child.name with
  | none => exact absurd old (find_name_none.mp again)
  | some first =>
    obtain ⟨id,known,_,origin⟩ := knows.origin child.name first again
    refine ⟨first,rfl,?_⟩
    unfold collision repeatedChild
    rw [below_kept kept bound]
    simp [known,origin]

theorem Knows.fresh {seen : List Block} {e : Declared} {child : Block} (knows : Knows d.tree node seen)
    (kept : d.tree.Kept e.tree) (bigger : d.tree.nodes.size < e.tree.nodes.size)
    (children : (e.tree.node node).children = (d.tree.node node).children.insert child.name d.tree.nodes.size)
    (origin : (e.tree.node d.tree.nodes.size).origin = child.origin) : Knows e.tree node (child :: seen) := by
  refine ⟨fun name => ?_,fun name first found => ?_⟩
  · rw [children,Table.contains_insert,List.map_cons,List.mem_cons,← knows.old]
    simp
  · rw [List.find?_cons] at found
    rw [children,Table.find_insert]
    split at found
    · rename_i same
      cases found
      rw [if_pos (beq_iff_eq.mp same).symm]
      exact ⟨_,rfl,bigger,origin⟩
    · rename_i other
      obtain ⟨id,known,bound,source⟩ := knows.origin name first found
      rw [if_neg fun same => by simp [same] at other]
      exact ⟨id,known,Nat.lt_trans bound bigger,(kept.origin id bound).trans source⟩

theorem addBlock_child (schema : Schema) (child : Block) (bound : node < d.tree.nodes.size) :
    let e := addBlock schema { d with tree := d.tree.withChild node child.name child.origin } d.tree.nodes.size child
    e.tree.nodes.size = d.tree.nodes.size + child.placed.length ∧
      (e.tree.node node).children = (d.tree.node node).children.insert child.name d.tree.nodes.size ∧
      (d.tree.withChild node child.name child.origin).Kept e.tree := by
  have grown := Tree.size_withChild child.name child.origin d.tree node
  have inside : d.tree.nodes.size < (d.tree.withChild node child.name child.origin).nodes.size := by omega
  have blank : ((d.tree.withChild node child.name child.origin).node d.tree.nodes.size).Blank := by
    rw [Tree.node_withChild bound,if_pos rfl]
    exact Node.blank_new ..
  obtain ⟨below,fits⟩ := addBlock_adds schema child { d with tree := d.tree.withChild node child.name child.origin }
    d.tree.nodes.size inside blank
  obtain ⟨adds,self⟩ := Adds.child bound below fits
  refine ⟨?_,by rw [self],?_⟩
  · rw [child.placed_length]
    exact adds.size
  · exact ((later_kept schema (d.tree.withChild node child.name child.origin)).block child _ _ inside (.refl _)).1

mutual

theorem addBlock_places (schema : Schema) (b : Block) (d : Declared) (node : Nat) (t : Tree)
    (last : d.tree.nodes.size = node + 1) (blank : (d.tree.node node).Blank)
    (kept : (addBlock schema d node b).tree.Kept t) :
    Places t node (node + 1) (b.duplicates t node) (placedBelow [] 0 b.children) d.issues
      (addBlock schema d node b).issues := by
  obtain ⟨kind,name,origin,attributes,children⟩ := b
  have bound : node < d.tree.nodes.size := by omega
  have nodes := addAttributes_nodes schema kind origin node attributes d
  have issues := @addAttributes_issues d t node schema kind origin attributes [] bound (fun name => by
    unfold Tree.declares
    simp [blank.entries,Table.contains,Table.find?])
  unfold addBlock at kept ⊢
  generalize attributes.foldl (addAttribute schema kind origin node) d = m at *
  have inside : node < m.tree.nodes.size := nodes.size.symm ▸ bound
  have later : m.tree.Kept t := ((later_kept schema m.tree).children children m node inside (.refl _)).1.trans kept
  have knows : Knows m.tree node [] := by
    refine ⟨fun name => ?_,fun _ _ impossible => (by cases impossible)⟩
    rw [nodes.children,blank.children]
    simp [Table.contains,Table.find?]
  have below := addChildren_places schema children m node [] 0 t inside knows kept
  rw [nodes.size,last,issues (nodes.kept.trans later)] at below
  unfold Block.duplicates
  rw [repetitions_from,repetitions_from]
  exact below.behind

theorem addChildren_places (schema : Schema) (children : List Block) (d : Declared) (node : Nat) (seen : List Block)
    (k : Nat) (t : Tree) (bound : node < d.tree.nodes.size) (knows : Knows d.tree node seen)
    (kept : (addChildren schema d node children).tree.Kept t) :
    Places t node d.tree.nodes.size ((repetitionsFrom Block.name seen children).map (repeatedChild t node))
      (placedBelow (seen.map Block.name) k children) d.issues (addChildren schema d node children).issues := by
  match children with
  | [] =>
    unfold addChildren placedBelow
    exact .nil ..
  | child :: rest =>
    have whole := ((later_kept schema d.tree).children (child :: rest) d node bound (.refl _)).1.trans kept
    unfold addChildren at kept ⊢
    unfold placedBelow repetitionsFrom
    rcases d.tree.addChild_withChild node child.name child.origin with
      ⟨existing,found,error,failed⟩ | ⟨none,added⟩
    · obtain ⟨first,again,issues⟩ := knows.taken found bound whole
      have same := (Tree.SameShape.setValid d.tree node false).sameNodes
      rw [failed] at kept
      have later := addChildren_places schema rest (d.collision node child) node seen (k + 1) t (same.size.symm ▸ bound)
        (knows.kept same.kept (same.children node)) kept
      rw [failed,again,if_pos (find_name_some again).1]
      rw [issues,show (d.collision node child).tree.nodes.size = d.tree.nodes.size from same.size] at later
      exact later.behind
    · have new : child.name ∉ seen.map Block.name := by
        rw [← knows.old,Table.contains,none]
        exact Bool.false_ne_true
      obtain ⟨size,children,widened⟩ := addBlock_child schema child bound
      have grown := Tree.size_withChild child.name child.origin d.tree node
      have own := Tree.node_withChild bound child.name child.origin d.tree.nodes.size
      rw [if_pos rfl] at own
      have inside := addBlock_places schema child { d with tree := d.tree.withChild node child.name child.origin }
        d.tree.nodes.size t grown (by rw [own]; exact Node.blank_new ..)
      rw [added] at kept ⊢
      rw [find_name_none.mpr new,if_neg new]
      dsimp only at kept size children widened inside ⊢
      generalize addBlock schema _ d.tree.nodes.size child = e at *
      have bigger : d.tree.nodes.size < e.tree.nodes.size := Nat.lt_of_lt_of_le (by omega) widened.size
      have outer : node < e.tree.nodes.size := Nat.lt_trans bound bigger
      have later := ((later_kept schema e.tree).children rest e node outer (.refl _)).1.trans kept
      have one : Places t node d.tree.nodes.size [] (child.placed.map fun placed => (k :: placed.1,placed.2))
          d.issues e.issues := by
        have made := widened.trans later
        exact .child (by rw [made.origin _ (by omega),own]; rfl) (by rw [made.parent _ (by omega),own]; rfl) (inside later)
      have two := addChildren_places schema rest e node (child :: seen) (k + 1) t outer
        (knows.fresh ((Tree.Kept.withChild bound ..).trans widened) bigger children
          (by rw [widened.origin _ (by omega),own]; rfl)) kept
      rw [size,← List.length_map (fun placed : List Nat × Block => (k :: placed.1,placed.2))] at two
      exact one.append two

end

-- What declaring makes of a block tree. The nodes are those of the blocks that are reached, by the
-- order of their ways.
structure Covers (schema : Schema) (root : Block) (d : Declared) : Prop where
  size : d.tree.nodes.size = root.placed.length
  origin : ∀ i way b, root.placed[i]? = some (way,b) → (d.tree.node i).origin = b.origin
  name : ∀ i way b, root.placed[i]? = some (way,b) → (d.tree.node i).name = if way = [] then "" else b.name
  top : (d.tree.node 0).parent = none
  parent : ∀ i way b up k, root.placed[i]? = some (way,b) → way = up ++ [k] →
    ∃ j c, root.placed[j]? = some (up,c) ∧ (d.tree.node i).parent = some j
  valid : ∀ i way b, root.placed[i]? = some (way,b) → ((d.tree.node i).valid = false ↔
    repetitions Prod.fst b.attributes ≠ [] ∨ repetitions Block.name b.children ≠ [])
  entries : ∀ i way b name, root.placed[i]? = some (way,b) → (d.tree.node i).entries.find? name =
    (b.attributes.lookup name).map fun _ => .blank (schema.spec b.kind name).type
  assignments : d.assignments = root.placed.zipIdx.flatMap fun ((_,b),i) =>
    (firsts Prod.fst [] b.attributes).map fun (key,raw) => schema.assignment b.kind ⟨i,key⟩ raw
  issues : d.issues.Perm (root.placed.zipIdx.flatMap fun ((_,b),i) => b.duplicates d.tree i)

theorem placed_numbered {β : Type} (root : Block) (f : Block → Nat → List β) :
    (root.placed.zipIdx.flatMap fun ((_,b),i) => f b i) = root.preorder.zipIdx.flatMap fun (b,i) => f b i := by
  rw [← root.placed_preorder,List.zipIdx_map,List.flatMap_map]
  rfl

theorem ofBlock_covers (schema : Schema) (root : Block) : Covers schema root (ofBlock schema root) := by
  have places := addBlock_places schema root ⟨.new root.origin,[],[]⟩ 0 (ofBlock schema root).tree rfl
    (Node.blank_new ..) (.refl _)
  have kept : (Tree.new root.origin).Kept (ofBlock schema root).tree :=
    (later_kept schema (Tree.new root.origin)).ofBlock root (.refl _)
  have fits : ∀ i way b, root.placed[i]? = some (way,b) →
      ((ofBlock schema root).tree.node i).Fits schema b ∧
        (i ≠ 0 → ((ofBlock schema root).tree.node i).name = b.name) := by
    intro i way b found
    apply ofBlock_fits schema root
    rw [← root.placed_preorder,List.getElem?_map,found]
    rfl
  refine ⟨?_,?_,?_,kept.parent 0 Nat.zero_lt_one,?_,?_,
    fun i way b name found => (fits i way b found).1.entries name,?_,?_⟩
  · rw [ofBlock_size,root.placed_length]
  · intro i way b found
    rw [Block.placed_cons] at found
    cases i with
    | zero =>
      cases found
      exact kept.origin 0 Nat.zero_lt_one
    | succ i =>
      rw [Nat.add_comm i 1]
      exact places.origin i way b found
  · intro i way b found
    have name := (fits i way b found).2
    rw [Block.placed_cons] at found
    cases i with
    | zero =>
      cases found
      exact kept.name 0 Nat.zero_lt_one
    | succ i =>
      obtain ⟨j,later,rfl⟩ := placedBelow_stepped (List.mem_map.mpr ⟨_,List.mem_of_getElem? found,rfl⟩)
      rw [if_neg (List.cons_ne_nil _ _)]
      exact name (Nat.succ_ne_zero i)
  · intro i way b up k found split
    have above := places.above found split
    simpa only [Nat.zero_add] using above
  · intro i way b found
    rw [← b.repeats_repetitions,← not_iff_not,← (fits i way b found).1.valid,Bool.not_eq_false]
  · rw [ofBlock_assignments]
    exact (placed_numbered root fun b i => b.assignments schema i).symm
  · rw [placed_numbered root fun b i => b.duplicates (ofBlock schema root).tree i,← root.placed_preorder,
      Block.placed_cons,List.map_cons,List.zipIdx_cons,List.flatMap_cons]
    exact places.issues

theorem ofBlock_tidy (schema : Schema) {root : Block} (once : ∀ b ∈ root.preorder, ¬b.Repeats) :
    (ofBlock schema root).issues = [] := by
  have nothing : ∀ b ∈ root.preorder, ∀ t i, b.duplicates t i = [] := by
    intro b member t i
    have tidy := once b member
    rw [b.repeats_repetitions,not_or,not_not,not_not] at tidy
    unfold Block.duplicates
    rw [tidy.1,tidy.2]
    rfl
  have all := (ofBlock_covers schema root).issues
  rw [placed_numbered root fun b i => b.duplicates (ofBlock schema root).tree i,List.flatMap_eq_nil_iff.mpr] at all
  · exact all.eq_nil
  · rintro ⟨b,i⟩ member
    exact nothing b (List.mem_of_getElem? (List.mem_zipIdx_iff_getElem?.mp member)) _ _

end Declared

-- Every block has one node, unless it or a block around it has the name of an earlier sibling;
-- what is left out is reported once. The keys are all there when the load comes to its first
-- attribute.
theorem Block.load_covers (schema : Schema) (root : Block) :
    let d := Declared.ofBlock schema root
    ((∀ way b, (way,b) ∈ root.placed ↔ root.Reaches way b) ∧ (root.placed.map Prod.fst).Pairwise (· < ·)) ∧
    Declared.Covers schema root d ∧
    (∀ b : Block,
      (firsts Prod.fst [] b.attributes ++ (repetitions Prod.fst b.attributes).map Prod.fst).Perm b.attributes) ∧
    (d.assignments.map Assignment.target).Nodup ∧
    (∀ a ∈ d.assignments, d.tree.slot? a.target = some (.blank a.resolver.type)) ∧
    ∀ environment, ∃ last,
      Runs environment (.start d.tree) d.assignments (root.attempts schema environment) last ∧
      (root.load schema environment).1 = d.issues ++ last.issues ∧
      (root.load schema environment).2.tree = last.tree := by
  intro d
  refine ⟨⟨root.mem_placed,root.placed_sorted⟩,Declared.ofBlock_covers schema root,fun b => ?_,
    Declared.ofBlock_distinct schema root,fun a member => ?_,fun environment => ?_⟩
  · rw [repetitions_from]
    exact firsts_repetitions [] b.attributes
  · obtain ⟨b,found,written,equal⟩ := Declared.mem_ofBlock.mp member
    rw [Declared.ofBlock_slot,found,Option.bind_some,written,Option.map_some,equal]
    exact congrArg (fun type => some (Entry.blank type)) (Resolver.type_ofType _).symm
  · obtain ⟨last,run,issues,tree,_⟩ := root.load_runs schema environment
    exact ⟨last,run,issues,tree⟩

-- Of two pumps the second is left out, with the attributes that it repeats.
example :
    let pump (source : String) (attributes : List (String × String)) : Block :=
      ⟨"pump","pump",⟨none,source⟩,attributes,[]⟩
    let d := Declared.ofBlock [] ⟨"","",.blank,[("flow","1"),("flow","2")],
      [pump "first" [("flow","3")],pump "second" [("flow","4"),("flow","5")]]⟩
    d.assignments.map Assignment.raw = ["1","3"] ∧
      d.issues.map Issue.text = ["/flow in  is defined more than once","block /pump in second collides with first"] := by
  decide +kernel

end DeferredAttributes
