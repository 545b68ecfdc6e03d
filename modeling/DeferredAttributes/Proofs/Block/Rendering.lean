import DeferredAttributes.Proofs.Block.Accounting
import DeferredAttributes.Proofs.Tree.Rendering

-- The rendering of a loaded block tree: every block's values in the order of declaration, then
-- its children in the order of creation. What is lost is what a child's name covers.
namespace DeferredAttributes

def Block.values (t : Tree) (i : Nat) (b : Block) : Table Value :=
  (firsts Prod.fst [] b.attributes).filterMap fun entry =>
    (t.stored? ⟨i,entry.1⟩).map fun content => (entry.1,content.1)

structure Declared.Listed (d : Declared) : Prop where
  children : ∀ i, (d.tree.node i).children = (d.tree.below i).map fun child => ((d.tree.node child).name,child)
  keys : ∀ i, (d.tree.node i).entries.names =
    (d.assignments.filter fun a => a.target.node = i).map fun a => a.target.name
  bound : ∀ a ∈ d.assignments, a.target.node < d.tree.nodes.size

namespace Tree

theorem Rooted.newer {t : Tree} (rooted : t.Rooted) {i child : Nat} (above : (t.node child).parent = some i) :
    i < child ∧ child < t.nodes.size ∧ (t.node i).children.find? (t.node child).name = some child := by
  have bound : child < t.nodes.size := List.mem_range.mp (List.mem_filter.mp (mem_below.mpr above)).1
  have positive : 0 < child := by
    rcases Nat.eq_zero_or_pos child with rfl | positive
    · rw [rooted.root] at above
      cases above
    · exact positive
  obtain ⟨parent,older,known,found⟩ := rooted.below child positive bound
  rw [above] at known
  cases known
  exact ⟨older,bound,found⟩

theorem below_congr {t t' : Tree} (size : t'.nodes.size = t.nodes.size)
    (parents : ∀ child, (t'.node child).parent = (t.node child).parent) (i : Nat) : t'.below i = t.below i := by
  unfold below
  simp only [size,parents]

theorem below_withChild {t : Tree} {parent : Nat} (bound : parent < t.nodes.size) (name : String) (origin : Origin)
    (i : Nat) :
    (t.withChild parent name origin).below i = t.below i ++ if i = parent then [t.nodes.size] else [] := by
  have nodes := node_withChild bound name origin
  have old : (List.range t.nodes.size).filter (fun child => ((t.withChild parent name origin).node child).parent = some i) =
      t.below i := by
    apply List.filter_congr
    intro child member
    have other : child ≠ t.nodes.size := Nat.ne_of_lt (List.mem_range.mp member)
    rw [nodes,if_neg other]
    split
    · rename_i here
      rw [here]
    · rfl
  have new : ((t.withChild parent name origin).node t.nodes.size).parent = some parent := by
    rw [nodes,if_pos rfl]
    rfl
  conv => lhs; unfold below
  rw [size_withChild,List.range_succ,List.filter_append,old,List.filter_singleton,new]
  by_cases here : i = parent
  · simp [here]
  · simp [here,Ne.symm here]

theorem Orderly.shaped {t t' : Tree} (orderly : t.Orderly) (same : t.SameShape t') : t'.Orderly := by
  have below : ∀ i, t'.below i = t.below i := below_congr same.size fun child => (same.nodes child).parent
  refine ⟨?_,?_,?_,?_⟩
  · intro i
    simp only [(same.nodes _).children,orderly.children,below,(same.nodes _).name]
  · intro i child above
    rw [(same.nodes child).parent] at above
    exact orderly.newer i child above
  · intro i
    simpa only [below,(same.nodes _).name] using orderly.names i
  · intro i
    rw [(same.nodes i).names]
    exact orderly.keys i

end Tree

namespace Declared

section
variable {d : Declared} (listed : d.Listed)
include listed

theorem Listed.invalid (node : Nat) (issues : Report) :
    Listed ⟨d.tree.setValid node false,d.assignments,issues⟩ := by
  have same : d.tree.SameShape (d.tree.setValid node false) := .setValid ..
  refine ⟨?_,?_,?_⟩
  · intro i
    simp only [(same.nodes _).children,listed.children,(same.nodes _).name,
      Tree.below_congr same.size fun child => (same.nodes child).parent]
  · intro i
    exact (same.nodes i).names.trans (listed.keys i)
  · intro a member
    exact same.size.symm ▸ listed.bound a member

theorem Listed.declared {node : Nat} {name : String} (bound : node < d.tree.nodes.size)
    (fresh : d.tree.declares name node = false) (entry : Entry) {a : Assignment} (target : a.target = ⟨node,name⟩)
    (issues : Report) :
    Listed ⟨d.tree.modify node fun n => { n with entries := n.entries.insert name entry },d.assignments ++ [a],issues⟩ := by
  have nodes := Tree.node_modify d.tree node
  have size := Tree.size_modify d.tree node fun n => { n with entries := n.entries.insert name entry }
  refine ⟨?_,?_,?_⟩
  · intro i
    have parents : ∀ k, ((d.tree.modify node fun n => { n with entries := n.entries.insert name entry }).node k).parent =
        (d.tree.node k).parent := by
      intro k
      rw [nodes]
      split <;> rfl
    have names : ∀ k, ((d.tree.modify node fun n => { n with entries := n.entries.insert name entry }).node k).name =
        (d.tree.node k).name := by
      intro k
      rw [nodes]
      split <;> rfl
    simp only [Tree.below_congr size parents,names,← listed.children]
    rw [nodes]
    split <;> rfl
  · intro i
    rw [List.filter_append,List.map_append,← listed.keys i,nodes]
    by_cases here : i = node
    · have new : name ∉ (d.tree.node node).entries.names := by
        rw [Table.mem_names,← Bool.not_eq_true] at *
        simpa [Tree.declares] using fresh
      subst here
      rw [if_pos ⟨rfl,bound⟩,Table.names_insert,if_neg new]
      simp [target]
    · have other : ¬a.target.node = i := by
        rw [target]
        exact Ne.symm here
      rw [if_neg fun both => here both.1]
      simp [other]
  · intro other member
    rw [size]
    rcases List.mem_append.mp member with old | new
    · exact listed.bound other old
    · rw [List.mem_singleton.mp new,target]
      exact bound

theorem Listed.widened (rooted : d.tree.Rooted) {node : Nat} {name : String} (bound : node < d.tree.nodes.size)
    (fresh : (d.tree.node node).children.find? name = none) (origin : Origin) :
    Listed { d with tree := d.tree.withChild node name origin } := by
  have nodes := Tree.node_withChild bound name origin
  have names : ∀ i, ∀ child ∈ d.tree.below i, ((d.tree.withChild node name origin).node child).name = (d.tree.node child).name := by
    intro i child member
    have other : child ≠ d.tree.nodes.size := Nat.ne_of_lt (rooted.newer (Tree.mem_below.mp member)).2.1
    rw [nodes,if_neg other]
    split
    · rename_i here
      rw [here]
    · rfl
  have old : ∀ i, (d.tree.below i).map (fun child => (((d.tree.withChild node name origin).node child).name,child)) =
      (d.tree.node i).children := by
    intro i
    rw [listed.children]
    apply List.map_congr_left
    intro child member
    rw [names i child member]
  refine ⟨?_,?_,?_⟩
  · intro i
    dsimp only
    rw [Tree.below_withChild bound,List.map_append,old,nodes]
    by_cases new : i = d.tree.nodes.size
    · have other : i ≠ node := fun same => by omega
      rw [if_pos new,if_neg other,List.map_nil,List.append_nil,new,Tree.node_outside (Nat.le_refl _)]
      rfl
    · rw [if_neg new]
      by_cases here : i = node
      · subst here
        have absent : name ∉ (d.tree.node i).children.names := by
          rw [Table.mem_names,Table.contains,fresh]
          exact Bool.false_ne_true
        rw [if_pos rfl,if_pos rfl,List.map_singleton,nodes,if_pos rfl]
        exact Table.insert_new _ absent
      · rw [if_neg here,if_neg here,List.map_nil,List.append_nil]
  · intro i
    rw [← listed.keys i,nodes]
    by_cases new : i = d.tree.nodes.size
    · rw [if_pos new,new,Tree.node_outside (Nat.le_refl _)]
      rfl
    · rw [if_neg new]
      split
      · rename_i here
        rw [here]
      · rfl
  · intro a member
    dsimp only
    rw [Tree.size_withChild]
    exact Nat.lt_succ_of_lt (listed.bound a member)

end

theorem listed_kept (schema : Schema) :
    Kept schema fun d => (d.tree.Rooted ∧ 0 < d.tree.nodes.size) ∧ d.Listed := by
  have rooted := rooted_kept schema
  refine ⟨?_,?_,?_⟩
  · intro d kind origin node entry bound both
    obtain ⟨before,listed⟩ := both
    refine ⟨rooted.attributed d kind origin node entry bound before,?_⟩
    unfold addAttribute
    dsimp only
    split
    · exact listed.invalid node _
    · rename_i undeclared
      have fresh : d.tree.declares entry.1 node = false := by simpa using undeclared
      have declare : d.tree.declare node entry.1 = fun type => d.tree.modify node fun n =>
          { n with entries := n.entries.insert entry.1 (.blank type) } := by
        funext type
        apply Tree.modify_congr
        exact if_neg (by simpa [Tree.declares] using undeclared)
      rw [declare]
      exact listed.declared bound fresh _ rfl _
  · intro d node child both
    exact ⟨rooted.collided d node child both.1,both.2.invalid node _⟩
  · intro d node name origin bound fresh both
    exact ⟨rooted.widened d node name origin bound fresh both.1,both.2.widened both.1.1 bound fresh origin⟩

theorem ofBlock_listed (schema : Schema) (root : Block) : (ofBlock schema root).Listed := by
  have single : ∀ i, ((Tree.new root.origin).node i).children = [] ∧ ((Tree.new root.origin).node i).entries = [] := by
    intro i
    cases i <;> exact ⟨rfl,rfl⟩
  refine ((listed_kept schema).ofBlock root ⟨⟨⟨rfl,?_⟩,Nat.zero_lt_one⟩,?_,?_,?_⟩).2
  · intro i positive bound
    have one : (Tree.new root.origin).nodes.size = 1 := rfl
    dsimp only at bound
    omega
  · exact fun i => (single i).1
  · intro i
    dsimp only
    rw [(single i).2]
    rfl
  · intro a member
    cases member

theorem assignments_at (schema : Schema) {blocks : List Block} (start : Nat) {k : Nat} {b : Block}
    (placed : blocks[k]? = some b) :
    ((blocks.zipIdx start).flatMap fun placed => placed.1.assignments schema placed.2).filter
        (fun a => a.target.node = start + k) = b.assignments schema (start + k) := by
  induction blocks generalizing start k with
  | nil => cases placed
  | cons head rest ih =>
    have own : ∀ a ∈ head.assignments schema start, a.target.node = start := fun a member => (mem_assignments.mp member).1
    have later := (targets_nodup schema rest (start + 1)).2
    rw [List.zipIdx_cons,List.flatMap_cons,List.filter_append]
    cases k with
    | zero =>
      cases placed
      have all : (b.assignments schema start).filter (fun a => a.target.node = start + 0) =
          b.assignments schema start := by
        rw [List.filter_eq_self]
        intro a member
        simpa using own a member
      have none : ((rest.zipIdx (start + 1)).flatMap fun placed => placed.1.assignments schema placed.2).filter
          (fun a => a.target.node = start + 0) = [] := by
        rw [List.filter_eq_nil_iff]
        intro a member
        have behind := later a member
        rw [decide_eq_true_eq]
        omega
      rw [all,none,List.append_nil]
      rfl
    | succ k =>
      have none : (head.assignments schema start).filter (fun a => a.target.node = start + (k + 1)) = [] := by
        rw [List.filter_eq_nil_iff]
        intro a member
        rw [own a member,decide_eq_true_eq]
        omega
      have place : start + (k + 1) = start + 1 + k := by omega
      rw [none,List.nil_append,place]
      exact ih (start + 1) (by simpa using placed)

theorem ofBlock_keys (schema : Schema) (root : Block) {i : Nat} {b : Block} (placed : root.preorder[i]? = some b) :
    ((ofBlock schema root).tree.node i).entries.names = (firsts Prod.fst [] b.attributes).map Prod.fst := by
  have own := assignments_at schema 0 placed
  rw [Nat.zero_add] at own
  rw [(ofBlock_listed schema root).keys,ofBlock_assignments,own,Block.assignments,List.map_map]
  rfl

theorem ofBlock_orderly (schema : Schema) (root : Block) : (ofBlock schema root).tree.Orderly := by
  have rooted := ofBlock_rooted schema root
  have listed := ofBlock_listed schema root
  have distinct := ofBlock_distinct schema root
  refine ⟨listed.children,fun i child above => (rooted.newer above).1,?_,?_⟩
  · intro i
    have once : ((ofBlock schema root).tree.below i).Nodup := List.nodup_range.filter _
    refine once.map_on ?_
    intro one left two right same
    have found := (rooted.newer (Tree.mem_below.mp left)).2.2
    rw [same,(rooted.newer (Tree.mem_below.mp right)).2.2] at found
    exact (Option.some.inj found).symm
  · intro i
    rw [listed.keys]
    refine (distinct.of_map.filter _).map_on ?_
    intro one left two right same
    obtain ⟨known,here⟩ := List.mem_filter.mp left
    obtain ⟨known',there⟩ := List.mem_filter.mp right
    apply List.inj_on_of_nodup_map distinct known known'
    have nodes : one.target.node = two.target.node := (of_decide_eq_true here).trans (of_decide_eq_true there).symm
    calc one.target = ⟨two.target.node,one.target.name⟩ := by rw [← nodes]
      _ = two.target := by rw [same]

end Declared

namespace Block

theorem load_orderly (schema : Schema) (environment : Environment) (root : Block) :
    (root.load schema environment).2.tree.Orderly :=
  (Declared.ofBlock_orderly schema root).shaped (root.load_shape schema environment)

theorem load_values (schema : Schema) (environment : Environment) (root : Block) {i : Nat} {b : Block}
    (placed : root.preorder[i]? = some b) :
    (root.load schema environment).2.tree.values i = b.values (root.load schema environment).2.tree i := by
  have orderly := root.load_orderly schema environment
  have keys : ((root.load schema environment).2.tree.node i).entries.names =
      (firsts Prod.fst [] b.attributes).map Prod.fst := by
    rw [((root.load_shape schema environment).nodes i).names,Declared.ofBlock_keys schema root placed]
  generalize (root.load schema environment).2.tree = t at *
  have stored : ∀ entry ∈ (t.node i).entries, entry.2.value.map (fun value => (entry.1,value)) =
      (t.stored? ⟨i,entry.1⟩).map fun content => (entry.1,content.1) := by
    intro entry member
    have found : t.slot? ⟨i,entry.1⟩ = some entry.2 := (Table.find_mem (orderly.keys i)).mpr member
    rw [Tree.stored_slot,found,Option.bind_some]
    cases entry.2.value <;> rfl
  have named : ∀ table : Table Entry, table.filterMap (fun entry =>
      (t.stored? ⟨i,entry.1⟩).map fun content => (entry.1,content.1)) =
        table.names.filterMap fun name => (t.stored? ⟨i,name⟩).map fun content => (name,content.1) := by
    intro table
    rw [Table.names,List.filterMap_map]
    rfl
  unfold Tree.values values
  rw [List.filterMap_congr stored,named,keys,List.filterMap_map]
  rfl

theorem load_typed (schema : Schema) (environment : Environment) (root : Block) {key : Key} {value : Value}
    {deterministic : Bool} (stored : (root.load schema environment).2.tree.stored? key = some (value,deterministic)) :
    value.type?.isSome = true := by
  obtain ⟨last,run,_,tree,_⟩ := root.load_runs schema environment
  rw [tree] at stored
  obtain ⟨entry,found,_⟩ := Option.bind_eq_some_iff.mp stored
  obtain ⟨e,member,rfl⟩ := (Block.attempt_slot run key).mp (Option.isSome_iff_exists.mpr ⟨entry,found⟩)
  obtain ⟨later,_,upheld⟩ := (run.truthful (root.load_open schema environment)).mem member
  rw [Assignment.answer_type found (upheld.solved stored)]
  rfl

-- A child that is named like a key with a value takes the place of that value; nothing else is
-- lost.
theorem load_renders (schema : Schema) (environment : Environment) (root : Block) {i : Nat} {b : Block}
    (placed : root.preorder[i]? = some b) :
    let t := (root.load schema environment).2.tree
    t.toValue i = .object ((b.values t i).overlaid (t.renderings i)) ∧
    ((b.values t i).overlaid (t.renderings i)).names.Nodup ∧
    (t.toValue i = .object (b.values t i ++ t.renderings i) ↔
      ∀ name ∈ (b.values t i).names, name ∉ (t.renderings i).names) ∧
    ∀ key value deterministic, t.isWithin key.node i = true → t.stored? key = some (value,deterministic) →
      ((t.toValue i).at? (t.namesBetween i key.node ++ [key.name]) = some value ↔
        ∀ child, (t.node child).parent = some key.node → (t.node child).name ≠ key.name) := by
  intro t
  have orderly : t.Orderly := root.load_orderly schema environment
  have values : t.values i = b.values t i := root.load_values schema environment placed
  rw [← values]
  refine ⟨orderly.toValue_overlaid i,
    Table.names_overlaid_nodup (orderly.values_nodup i) (orderly.renderings_nodup i),orderly.toValue_append i,?_⟩
  intro key value deterministic within stored
  exact orderly.toValue_stored within stored (root.load_typed schema environment stored)

end Block

def cistern : Block := ⟨"tank","main",.blank,[("level","3")],[⟨"gauge","level",.blank,[("reading","2")],[]⟩]⟩

theorem load_renders_cistern :
    cistern.preorder[0]? = some cistern ∧
      (cistern.load [] .empty).2.tree.isWithin 1 0 = true ∧
      ∃ value deterministic, (cistern.load [] .empty).2.tree.stored? ⟨1,"reading"⟩ = some (value,deterministic) ∧
        ((cistern.load [] .empty).2.tree.toValue 0).at? ["level","reading"] = some value := by
  have idle : (cistern.tried [] .empty).pending = [] := List.length_eq_zero_iff.mp (by decide +kernel)
  have placed : cistern.preorder[0]? = some cistern := by rw [Block.preorder_cons]; rfl
  have within : (cistern.load [] .empty).2.tree.isWithin 1 0 = true := by
    rw [Block.load_idle idle]
    decide +kernel
  have solved : ((cistern.load [] .empty).2.tree.stored? ⟨1,"reading"⟩).isSome = true := by
    rw [Block.load_idle idle]
    decide +kernel
  have names : (cistern.load [] .empty).2.tree.namesBetween 0 1 = ["level"] := by
    rw [Block.load_idle idle]
    decide +kernel
  have alone : (cistern.load [] .empty).2.tree.below 1 = [] := by
    rw [Block.load_idle idle]
    decide +kernel
  obtain ⟨⟨value,deterministic⟩,stored⟩ := Option.isSome_iff_exists.mp solved
  have found := ((Block.load_renders [] .empty cistern placed).2.2.2 ⟨1,"reading"⟩ value deterministic within stored).mpr
    fun child above => by
      have member := Tree.mem_below.mpr above
      rw [alone] at member
      cases member
  rw [names] at found
  exact ⟨placed,within,value,deterministic,stored,found⟩

-- The value of the key is not in the object, neither in its place nor under its name.
theorem cistern_covers_level :
    let t := (cistern.load [] .empty).2.tree
    t.toValue 0 ≠ .object (cistern.values t 0 ++ t.renderings 0) ∧
      ∃ value deterministic, t.stored? ⟨0,"level"⟩ = some (value,deterministic) ∧
        (t.toValue 0).at? ["level"] ≠ some value := by
  intro t
  have idle : (cistern.tried [] .empty).pending = [] := List.length_eq_zero_iff.mp (by decide +kernel)
  have orderly : t.Orderly := cistern.load_orderly [] .empty
  have placed : cistern.preorder[0]? = some cistern := by rw [Block.preorder_cons]; rfl
  have solved : (t.stored? ⟨0,"level"⟩).isSome = true := by
    unfold t
    rw [Block.load_idle idle]
    decide +kernel
  have above : (t.node 1).parent = some 0 ∧ (t.node 1).name = "level" := by
    unfold t
    rw [Block.load_idle idle]
    decide +kernel
  obtain ⟨⟨value,deterministic⟩,stored⟩ := Option.isSome_iff_exists.mp solved
  have typed := cistern.load_typed [] .empty stored
  refine ⟨?_,value,deterministic,stored,?_⟩
  · rw [← cistern.load_values [] .empty placed]
    intro whole
    have own : "level" ∈ (t.values 0).names := by
      rw [Table.mem_names,Table.contains,orderly.find_values ⟨0,"level"⟩,stored]
      rfl
    refine (orderly.toValue_append 0).mp whole "level" own ?_
    exact List.mem_map.mpr ⟨_,List.mem_map.mpr ⟨1,Tree.mem_below.mpr above.1,rfl⟩,above.2⟩
  · intro found
    have within : t.isWithin 0 0 = true := by
      unfold Tree.isWithin
      rw [Tree.ancestors]
      simp
    have apart := (orderly.toValue_stored within stored typed).mp (by rw [Tree.namesBetween_self]; exact found)
    exact apart 1 above.1 above.2

end DeferredAttributes
