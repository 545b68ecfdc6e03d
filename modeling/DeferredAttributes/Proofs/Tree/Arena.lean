import DeferredAttributes.Proofs.Tree.Evolving
import DeferredAttributes.Proofs.Block.Rendering

-- The nodes of a tree in their arena. Whatever happens to a tree, parents and children know
-- each other, and the way up from a node ends at the root.
namespace DeferredAttributes.Tree

structure Arena (t : Tree) : Prop extends t.Rooted where
  filled : 0 < t.nodes.size
  children : ∀ i name child, (name,child) ∈ (t.node i).children →
    child < t.nodes.size ∧ (t.node child).parent = some i ∧ (t.node child).name = name

structure Kept (t t' : Tree) : Prop where
  size : t.nodes.size ≤ t'.nodes.size
  name : ∀ i, i < t.nodes.size → (t'.node i).name = (t.node i).name
  parent : ∀ i, i < t.nodes.size → (t'.node i).parent = (t.node i).parent
  origin : ∀ i, i < t.nodes.size → (t'.node i).origin = (t.node i).origin

section
variable {a b c t t' : Tree} {writes : List Key}

theorem SameNodes.each (size : t'.nodes.size = t.nodes.size)
    (alike : ∀ i, (t'.node i).name = (t.node i).name ∧ (t'.node i).parent = (t.node i).parent ∧
      (t'.node i).children = (t.node i).children ∧ (t'.node i).origin = (t.node i).origin) : t.SameNodes t' :=
  ⟨size,fun i => (alike i).1,fun i => (alike i).2.1,fun i => (alike i).2.2.1,fun i => (alike i).2.2.2⟩

theorem SameNodes.declare (t : Tree) (id : Nat) (name : String) (type : ValueType) :
    t.SameNodes (t.declare id name type) := by
  refine .each (size_modify ..) fun i => ?_
  unfold Tree.declare
  rw [node_modify]
  split
  · split <;> exact ⟨rfl,rfl,rfl,rfl⟩
  · exact ⟨rfl,rfl,rfl,rfl⟩

theorem SameNodes.withChild (same : t.SameNodes t') {parent : Nat} (bound : parent < t.nodes.size) (name : String)
    (origin : Origin) : (t.withChild parent name origin).SameNodes (t'.withChild parent name origin) := by
  have nodes := node_withChild bound name origin
  have nodes' := node_withChild (same.size.symm ▸ bound : parent < t'.nodes.size) name origin
  rw [same.size] at nodes'
  refine .each (by simp [size_withChild,same.size]) fun i => ?_
  rw [nodes,nodes']
  split
  · exact ⟨rfl,rfl,rfl,rfl⟩
  · split <;> simp [same.name,same.parent,same.children,same.origin]

theorem SameNodes.kept (same : t.SameNodes t') : t.Kept t' :=
  ⟨Nat.le_of_eq same.size.symm,fun i _ => same.name i,fun i _ => same.parent i,fun i _ => same.origin i⟩

theorem Kept.refl (t : Tree) : t.Kept t := (SameShape.refl t).sameNodes.kept

theorem Kept.trans (left : a.Kept b) (right : b.Kept c) : a.Kept c := by
  have inside : ∀ i, i < a.nodes.size → i < b.nodes.size := fun i bound => Nat.lt_of_lt_of_le bound left.size
  exact ⟨Nat.le_trans left.size right.size,
    fun i bound => (right.name i (inside i bound)).trans (left.name i bound),
    fun i bound => (right.parent i (inside i bound)).trans (left.parent i bound),
    fun i bound => (right.origin i (inside i bound)).trans (left.origin i bound)⟩

theorem Kept.withChild {parent : Nat} (bound : parent < t.nodes.size) (name : String) (origin : Origin) :
    t.Kept (t.withChild parent name origin) := by
  have identity := fun i (old : i < t.nodes.size) => identity_withChild bound name origin old
  refine ⟨?_,fun i old => (identity i old).2.1,fun i old => (identity i old).1,fun i old => (identity i old).2.2⟩
  simp [size_withChild]

theorem Arena.new (origin : Origin) : (Tree.new origin).Arena := by
  have one : (Tree.new origin).nodes.size = 1 := rfl
  refine ⟨⟨rfl,?_⟩,?_,?_⟩
  · intro i positive bound
    omega
  · omega
  · intro i name child member
    cases i <;> cases member

theorem Arena.moved (arena : t.Arena) (same : t.SameNodes t') : t'.Arena := by
  refine ⟨⟨?_,?_⟩,?_,?_⟩
  · rw [same.parent,arena.root]
  · simpa only [same.size,same.parent,same.children,same.name] using arena.below
  · rw [same.size]
    exact arena.filled
  · simpa only [same.size,same.parent,same.children,same.name] using arena.children

theorem Arena.withChild (arena : t.Arena) {parent : Nat} {name : String} (bound : parent < t.nodes.size)
    (fresh : (t.node parent).children.find? name = none) (origin : Origin) : (t.withChild parent name origin).Arena := by
  have nodes := node_withChild bound name origin
  have size := size_withChild name origin t parent
  have kept := Kept.withChild bound name origin
  refine ⟨arena.toRooted.withChild bound name origin fresh,by omega,?_⟩
  -- a child from before
  have old : ∀ i known child, (known,child) ∈ (t.node i).children → child < (t.withChild parent name origin).nodes.size ∧
      ((t.withChild parent name origin).node child).parent = some i ∧
      ((t.withChild parent name origin).node child).name = known := by
    intro i known child member
    obtain ⟨inside,above,named⟩ := arena.children i known child member
    exact ⟨by omega,(kept.parent child inside).trans above,(kept.name child inside).trans named⟩
  intro i known child member
  rw [nodes] at member
  split at member
  · cases member
  · split at member
    · rename_i here
      subst here
      rcases Table.mem_insert member with new | before
      · cases new
        rw [nodes,if_pos rfl]
        exact ⟨by omega,rfl,rfl⟩
      · exact old i known child before
    · exact old i known child member

theorem Evolves.trees (holds : Tree → Tree → Prop) (same : ∀ {t t'}, t.SameNodes t' → holds t t')
    (child : ∀ {t parent name} origin, parent < t.nodes.size → (t.node parent).children.find? name = none →
      holds t (t.withChild parent name origin))
    (trans : ∀ {a b c}, holds a b → holds b c → holds a c) (evolves : t.Evolves writes t') : holds t t' := by
  induction evolves with
  | same => exact same (SameShape.refl _).sameNodes
  | child bound added =>
    obtain ⟨fresh,rfl⟩ := addChild_ok added
    exact child _ bound fresh
  | declared id name type => exact same (.declare ..)
  | written written =>
    obtain ⟨entry,found,_,rfl⟩ := write_ok written
    exact same (shape_put found ..).sameNodes
  | flagged id valid => exact same (SameShape.setValid ..).sameNodes
  | trans _ _ one two => exact trans one two

theorem Evolves.kept (evolves : t.Evolves writes t') : t.Kept t' :=
  evolves.trees Kept SameNodes.kept (fun origin bound _ => .withChild bound _ origin) Kept.trans

theorem Evolves.arena (evolves : t.Evolves writes t') : t.Arena → t'.Arena :=
  evolves.trees (fun t t' => t.Arena → t'.Arena) (fun same arena => arena.moved same)
    (fun origin bound fresh arena => arena.withChild bound fresh origin) fun one two arena => two (one arena)

end

section
variable {t : Tree} {i j k : Nat}

theorem mem_ancestors : j ∈ t.ancestors i ↔ j = i ∨ ∃ parent, (t.node i).parent = some parent ∧ parent < i ∧
    j ∈ t.ancestors parent := by
  rw [ancestors,List.mem_cons]
  apply or_congr_right
  cases (t.node i).parent with
  | none => simp
  | some parent => by_cases older : parent < i <;> simp [older]

theorem ancestors_le (above : j ∈ t.ancestors i) : j ≤ i := by
  induction i using Nat.strongRecOn with
  | ind i ih =>
    rcases mem_ancestors.mp above with here | ⟨parent,_,older,beyond⟩
    · omega
    · have bound := ih parent older beyond
      omega

theorem Kept.ancestors {t' : Tree} (kept : t.Kept t') (bound : i < t.nodes.size) : t'.ancestors i = t.ancestors i := by
  induction i using Nat.strongRecOn with
  | ind i ih =>
    rw [Tree.ancestors,Tree.ancestors,kept.parent i bound]
    cases (t.node i).parent with
    | none => rfl
    | some parent =>
      by_cases older : parent < i
      · simp only [older,if_true,ih parent older (Nat.lt_trans older bound)]
      · simp only [older,if_false]

theorem Kept.path {t' : Tree} (kept : t.Kept t') (bound : i < t.nodes.size) : t'.path i = t.path i := by
  unfold Tree.path
  rw [kept.ancestors bound]
  dsimp only
  congr 3
  apply List.map_congr_left
  intro j member
  exact kept.name j (Nat.lt_of_le_of_lt (ancestors_le (List.mem_filter.mp member).1) bound)

theorem ancestors_above (above : j ∈ t.ancestors i) (further : k ∈ t.ancestors j) : k ∈ t.ancestors i := by
  induction i using Nat.strongRecOn with
  | ind i ih =>
    rcases mem_ancestors.mp above with here | ⟨parent,known,older,beyond⟩
    · rwa [← here]
    · exact mem_ancestors.mpr (.inr ⟨parent,known,older,ih parent older beyond⟩)

theorem isWithin_iff : t.isWithin i j = true ↔ j ∈ t.ancestors i := by
  simp [isWithin]

theorem isWithin_refl (t : Tree) (i : Nat) : t.isWithin i i = true := by
  rw [isWithin_iff,ancestors]
  exact List.mem_cons_self

theorem isWithin_trans (one : t.isWithin i j = true) (two : t.isWithin j k = true) : t.isWithin i k = true :=
  isWithin_iff.mpr (ancestors_above (isWithin_iff.mp one) (isWithin_iff.mp two))

theorem isWithin_antisymm (one : t.isWithin i j = true) (two : t.isWithin j i = true) : i = j :=
  Nat.le_antisymm (ancestors_le (isWithin_iff.mp two)) (ancestors_le (isWithin_iff.mp one))

namespace Arena
variable (arena : t.Arena)
include arena

theorem ancestors_below (positive : 0 < i) (bound : i < t.nodes.size) :
    ∃ parent, parent < i ∧ (t.node i).parent = some parent ∧ t.ancestors i = i :: t.ancestors parent := by
  obtain ⟨parent,older,above,_⟩ := arena.below i positive bound
  refine ⟨parent,older,above,?_⟩
  rw [ancestors,above]
  dsimp only
  rw [if_pos older]

theorem climbs (bound : i < t.nodes.size) :
    (t.ancestors i).IsChain (fun child parent => (t.node child).parent = some parent) ∧
      (t.ancestors i).head? = some i ∧ (t.ancestors i).getLast? = some 0 := by
  induction i using Nat.strongRecOn with
  | ind i ih =>
    rcases Nat.eq_zero_or_pos i with rfl | positive
    · rw [ancestors,arena.root]
      simp
    · obtain ⟨parent,older,above,up⟩ := arena.ancestors_below positive bound
      obtain ⟨chain,first,last⟩ := ih parent older (by omega)
      obtain ⟨beyond,split⟩ := List.head?_eq_some_iff.mp first
      rw [up]
      refine ⟨?_,rfl,?_⟩
      · rw [split] at chain ⊢
        exact .cons_cons above chain
      · rw [List.getLast?_cons,last]
        rfl

theorem isWithin_root (bound : i < t.nodes.size) : t.isWithin i 0 = true :=
  isWithin_iff.mpr (List.mem_of_getLast? (arena.climbs bound).2.2)

theorem siblings (above : (t.node i).parent = some k) (beside : (t.node j).parent = some k)
    (same : (t.node i).name = (t.node j).name) : i = j := by
  have one := (arena.toRooted.newer above).2.2
  have two := (arena.toRooted.newer beside).2.2
  rw [same] at one
  exact Option.some.inj (one.symm.trans two)

end Arena
end
end DeferredAttributes.Tree
