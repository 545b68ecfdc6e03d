import DeferredAttributes.Proofs.Block.Declared

-- Different keys of a declared tree have different paths, as long as no name has a slash.
namespace DeferredAttributes

structure Declared.Kept (schema : Schema) (holds : Declared → Prop) : Prop where
  attributed : ∀ d kind origin node entry, node < d.tree.nodes.size → holds d →
    holds (addAttribute schema kind origin node d entry)
  collided : ∀ d node child, holds d → holds (d.collision node child)
  widened : ∀ d node name origin, node < d.tree.nodes.size → (d.tree.node node).children.find? name = none → holds d →
    holds { d with tree := d.tree.withChild node name origin }

namespace Declared
variable {schema : Schema} {holds : Declared → Prop}

theorem size_addAttribute (schema : Schema) (kind : String) (origin : Origin) (node : Nat) (d : Declared)
    (entry : String × String) :
    (addAttribute schema kind origin node d entry).tree.nodes.size = d.tree.nodes.size := by
  unfold addAttribute
  dsimp only
  split
  · exact Tree.size_modify ..
  · exact Tree.size_modify ..

theorem Kept.attributes (kept : Kept schema holds) (kind : String) (origin : Origin) (node : Nat)
    (attributes : List (String × String)) {d : Declared} (bound : node < d.tree.nodes.size) (before : holds d) :
    holds (attributes.foldl (addAttribute schema kind origin node) d) ∧
      (attributes.foldl (addAttribute schema kind origin node) d).tree.nodes.size = d.tree.nodes.size := by
  induction attributes generalizing d with
  | nil => exact ⟨before,rfl⟩
  | cons entry rest ih =>
    have same := size_addAttribute schema kind origin node d entry
    obtain ⟨after,size⟩ := ih (same.symm ▸ bound) (kept.attributed d kind origin node entry bound before)
    exact ⟨after,size.trans same⟩

mutual

theorem Kept.block (kept : Kept schema holds) (b : Block) (d : Declared) (node : Nat)
    (bound : node < d.tree.nodes.size) (before : holds d) :
    holds (addBlock schema d node b) ∧ d.tree.nodes.size ≤ (addBlock schema d node b).tree.nodes.size := by
  obtain ⟨kind,name,origin,attributes,children⟩ := b
  obtain ⟨middle,size⟩ := kept.attributes kind origin node attributes bound before
  obtain ⟨after,bigger⟩ := kept.children children _ node (size.symm ▸ bound) middle
  unfold addBlock
  exact ⟨after,by omega⟩

theorem Kept.children (kept : Kept schema holds) (children : List Block) (d : Declared) (node : Nat)
    (bound : node < d.tree.nodes.size) (before : holds d) :
    holds (addChildren schema d node children) ∧
      d.tree.nodes.size ≤ (addChildren schema d node children).tree.nodes.size := by
  match children with
  | [] =>
    unfold addChildren
    exact ⟨before,Nat.le_refl _⟩
  | child :: rest =>
    unfold addChildren
    rcases d.tree.addChild_withChild node child.name child.origin with
      ⟨existing,found,error,failed⟩ | ⟨none,added⟩
    · have same : (d.collision node child).tree.nodes.size = d.tree.nodes.size := Tree.size_modify ..
      obtain ⟨after,bigger⟩ := kept.children rest _ node (same.symm ▸ bound) (kept.collided d node child before)
      rw [failed]
      dsimp only
      exact ⟨after,by omega⟩
    · have grown := Tree.size_withChild child.name child.origin d.tree node
      obtain ⟨inside,more⟩ := kept.block child
        { d with tree := d.tree.withChild node child.name child.origin } d.tree.nodes.size
        (by rw [grown]; omega) (kept.widened d node child.name child.origin bound none before)
      rw [added]
      dsimp only at more ⊢
      obtain ⟨after,bigger⟩ := kept.children rest _ node (by omega) inside
      exact ⟨after,by omega⟩

end

theorem Kept.ofBlock (kept : Kept schema holds) (root : Block) (start : holds ⟨.new root.origin,[],[]⟩) :
    holds (ofBlock schema root) :=
  (kept.block root ⟨.new root.origin,[],[]⟩ 0 Nat.zero_lt_one start).1

end Declared
namespace Tree

structure Rooted (t : Tree) : Prop where
  root : (t.node 0).parent = none
  below : ∀ i, 0 < i → i < t.nodes.size → ∃ parent, parent < i ∧ (t.node i).parent = some parent ∧
    (t.node parent).children.find? (t.node i).name = some i

theorem Rooted.shaped {t t' : Tree} (rooted : t.Rooted) (same : t.SameShape t') : t'.Rooted := by
  refine ⟨?_,?_⟩
  · rw [(same.nodes 0).parent,rooted.root]
  · intro i positive bound
    obtain ⟨parent,older,above,known⟩ := rooted.below i positive (same.size ▸ bound)
    refine ⟨parent,older,?_,?_⟩
    · rw [(same.nodes i).parent,above]
    · rw [(same.nodes parent).children,(same.nodes i).name,known]

theorem identity_withChild {t : Tree} {parent : Nat} (bound : parent < t.nodes.size) (name : String) (origin : Origin)
    {i : Nat} (old : i < t.nodes.size) : ((t.withChild parent name origin).node i).parent = (t.node i).parent ∧
      ((t.withChild parent name origin).node i).name = (t.node i).name ∧
      ((t.withChild parent name origin).node i).origin = (t.node i).origin := by
  rw [node_withChild bound,if_neg (Nat.ne_of_lt old)]
  split
  · rename_i here
    simp [here]
  · exact ⟨rfl,rfl,rfl⟩

theorem Rooted.withChild {t : Tree} (rooted : t.Rooted) {parent : Nat} (bound : parent < t.nodes.size) (name : String)
    (origin : Origin) (fresh : (t.node parent).children.find? name = none) :
    (t.withChild parent name origin).Rooted := by
  have nodes := node_withChild bound name origin
  have above := fun i (old : i < t.nodes.size) => identity_withChild bound name origin old
  have children : ∀ i known, i < t.nodes.size → known ≠ name ∨ i ≠ parent →
      ((t.withChild parent name origin).node i).children.find? known = (t.node i).children.find? known := by
    intro i known old other
    rw [nodes,if_neg (by omega)]
    split
    · rename_i here
      rcases other with named | elsewhere
      · rw [Table.find_insert,if_neg named,here]
      · exact absurd here elsewhere
    · rfl
  refine ⟨?_,?_⟩
  · rw [(above 0 (by omega)).1,rooted.root]
  · intro i positive bounded
    rw [size_withChild] at bounded
    by_cases new : i = t.nodes.size
    · refine ⟨parent,by omega,?_,?_⟩
      · rw [nodes,if_pos new]
        rfl
      · rw [nodes,nodes,if_neg (by omega),if_pos rfl,if_pos new]
        simp [Table.find_insert,Node.new,new]
    · obtain ⟨up,older,parents,known⟩ := rooted.below i positive (by omega)
      refine ⟨up,older,(above i (by omega)).1.trans parents,?_⟩
      rw [(above i (by omega)).2.1,children up _ (by omega) ?_]
      · exact known
      · by_cases named : (t.node i).name = name
        · right
          rintro rfl
          rw [named,fresh] at known
          cases known
        · exact .inl named

end Tree

theorem Declared.rooted_kept (schema : Schema) : Kept schema fun d => d.tree.Rooted ∧ 0 < d.tree.nodes.size := by
  refine ⟨?_,?_,?_⟩
  · rintro d kind origin node ⟨name,raw⟩ _ ⟨rooted,some⟩
    refine ⟨?_,(size_addAttribute ..).symm ▸ some⟩
    cases declared : d.tree.declares name node with
    | true =>
      rw [(addAttribute_repeated schema kind origin raw declared).1]
      exact rooted.shaped (.setValid ..)
    | false =>
      rw [(addAttribute_new schema kind origin raw declared).1]
      refine ⟨?_,?_⟩
      · rw [Tree.node_modify]
        split
        · rename_i here
          exact rooted.root
        · exact rooted.root
      · intro i positive bound
        rw [Tree.size_modify] at bound
        obtain ⟨parent,older,above,known⟩ := rooted.below i positive bound
        refine ⟨parent,older,?_,?_⟩
        · rw [Tree.node_modify]
          split <;> exact above
        · rw [Tree.node_modify,Tree.node_modify]
          split <;> split <;> exact known
  · rintro d node child ⟨rooted,some⟩
    exact ⟨rooted.shaped (.setValid ..),(Tree.SameShape.setValid ..).size.symm ▸ some⟩
  · rintro d node name origin bound fresh ⟨rooted,some⟩
    exact ⟨rooted.withChild bound name origin fresh,by rw [Tree.size_withChild]; omega⟩

theorem Declared.ofBlock_rooted (schema : Schema) (root : Block) : (ofBlock schema root).tree.Rooted := by
  refine ((rooted_kept schema).ofBlock root ⟨⟨rfl,?_⟩,Nat.zero_lt_one⟩).1
  intro i positive bound
  have one : (Tree.new root.origin).nodes.size = 1 := rfl
  dsimp only at bound
  omega

namespace Tree
variable {t : Tree}

def names (t : Tree) (i : Nat) : List String := ((t.ancestors i).filter (· ≠ 0)).map fun i => (t.node i).name

theorem Rooted.names_root (rooted : t.Rooted) : t.names 0 = [] := by
  unfold names
  rw [ancestors,rooted.root]
  rfl

theorem Rooted.names_below (rooted : t.Rooted) {i : Nat} (positive : 0 < i) (bound : i < t.nodes.size) :
    ∃ parent, parent < i ∧ (t.node parent).children.find? (t.node i).name = some i ∧
      t.names i = (t.node i).name :: t.names parent := by
  obtain ⟨parent,older,above,known⟩ := rooted.below i positive bound
  refine ⟨parent,older,known,?_⟩
  unfold names
  rw [ancestors,above]
  dsimp only
  rw [if_pos older,List.filter_cons_of_pos (by simpa using Nat.ne_of_gt positive),List.map_cons]

theorem Rooted.names_inj (rooted : t.Rooted) {i j : Nat} (left : i < t.nodes.size) (right : j < t.nodes.size)
    (same : t.names i = t.names j) : i = j := by
  induction i using Nat.strongRecOn generalizing j with
  | ind i ih =>
    rcases Nat.eq_zero_or_pos i with rfl | here
    · rcases Nat.eq_zero_or_pos j with rfl | there
      · rfl
      · obtain ⟨_,_,_,names⟩ := rooted.names_below there right
        rw [rooted.names_root,names] at same
        cases same
    · obtain ⟨parent,older,known,names⟩ := rooted.names_below here left
      rcases Nat.eq_zero_or_pos j with rfl | there
      · rw [rooted.names_root,names] at same
        cases same
      · obtain ⟨parent',older',known',names'⟩ := rooted.names_below there right
        rw [names,names'] at same
        obtain ⟨name,rest⟩ := List.cons.inj same
        have equal := ih parent older (by omega) (by omega) rest
        rw [equal,name,known'] at known
        exact (Option.some.inj known).symm

theorem Rooted.names_clean (rooted : t.Rooted)
    (clean : ∀ i, 0 < i → i < t.nodes.size → '/' ∉ (t.node i).name.toList) {i : Nat} (bound : i < t.nodes.size) :
    ∀ name ∈ t.names i, '/' ∉ name.toList := by
  induction i using Nat.strongRecOn with
  | ind i ih =>
    rcases Nat.eq_zero_or_pos i with rfl | here
    · rw [rooted.names_root]
      intro name member
      cases member
    · obtain ⟨parent,older,_,names⟩ := rooted.names_below here bound
      rw [names]
      intro name member
      rcases List.mem_cons.mp member with rfl | above
      · exact clean i here bound
      · exact ih parent older (by omega) name above

theorem Rooted.displayKey_names (rooted : t.Rooted) {key : Key} (bound : key.node < t.nodes.size) :
    t.displayKey key = "/" ++ "/".intercalate ((t.names key.node).reverse ++ [key.name]) := by
  unfold displayKey
  rcases Nat.eq_zero_or_pos key.node with root | below
  · rw [if_pos root,root,rooted.names_root]
    simp
  · obtain ⟨_,_,_,names⟩ := rooted.names_below below bound
    have some : (t.names key.node).reverse ≠ [] := by
      rw [names]
      simp
    rw [if_neg (Nat.ne_of_gt below),String.intercalate_append_of_ne_nil some (by simp),String.intercalate_singleton]
    change "/" ++ "/".intercalate (t.names key.node).reverse ++ "/" ++ key.name = _
    rw [String.append_assoc,String.append_assoc,String.append_assoc]

theorem intercalate_inj {one two : List String} (first : one ≠ []) (second : two ≠ [])
    (clean : ∀ name ∈ one, '/' ∉ name.toList) (clean' : ∀ name ∈ two, '/' ∉ name.toList)
    (same : "/".intercalate one = "/".intercalate two) : one = two := by
  have split : ∀ names : List String, names ≠ [] → (∀ name ∈ names, '/' ∉ name.toList) →
      ("/".intercalate names).toList.splitOn '/' = names.map String.toList := by
    intro names some free
    rw [String.toList_intercalate]
    apply List.splitOn_intercalate '/'
    · intro letters member
      obtain ⟨name,present,rfl⟩ := List.mem_map.mp member
      exact free name present
    · simpa using some
  have letters := split one first clean
  rw [same,split two second clean'] at letters
  exact (List.map_inj_right fun a b equal => String.toList_inj.mp equal).mp letters.symm

theorem Rooted.displayKey_inj (rooted : t.Rooted)
    (clean : ∀ i, 0 < i → i < t.nodes.size → '/' ∉ (t.node i).name.toList) {one two : Key}
    (left : one.node < t.nodes.size) (right : two.node < t.nodes.size) (free : '/' ∉ one.name.toList)
    (free' : '/' ∉ two.name.toList) (same : t.displayKey one = t.displayKey two) : one = two := by
  rw [rooted.displayKey_names left,rooted.displayKey_names right] at same
  have joined := String.append_right_inj _ |>.mp same
  have lists : ∀ key : Key, key.node < t.nodes.size → '/' ∉ key.name.toList →
      ∀ name ∈ (t.names key.node).reverse ++ [key.name], '/' ∉ name.toList := by
    intro key bound free name member
    rcases List.mem_append.mp member with above | own
    · exact rooted.names_clean clean bound name (List.mem_reverse.mp above)
    · rw [List.mem_singleton.mp own]
      exact free
  have equal := intercalate_inj (by simp) (by simp) (lists one left free) (lists two right free') joined
  obtain ⟨nodes,name⟩ := List.append_inj' equal rfl
  have node := rooted.names_inj left right (List.reverse_injective nodes)
  cases one
  cases two
  simp_all

end Tree
end DeferredAttributes
