import Mathlib.Data.List.Pairwise
import DeferredAttributes.Proofs.Block.Preorder

-- Where the blocks of a block tree stand: a way down gives the number of a child for every step.
-- The preorder has the blocks by their ways, a way in front of those that go on from it.
namespace DeferredAttributes

-- What stands at the end of a way, where no block behind the first has a name that an earlier
-- sibling has.
inductive Block.Reaches : Block → List Nat → Block → Prop where
  | here (b : Block) : Reaches b [] b
  | step {b child c : Block} {k : Nat} {way : List Nat} (placed : b.children[k]? = some child)
      (new : child.name ∉ (b.children.take k).map Block.name) (later : child.Reaches way c) : Reaches b (k :: way) c

mutual

def Block.placed : Block → List (List Nat × Block)
  | ⟨kind,name,origin,attributes,children⟩ => ([],⟨kind,name,origin,attributes,children⟩) :: placedBelow [] 0 children

def placedBelow (taken : List String) (k : Nat) : List Block → List (List Nat × Block)
  | [] => []
  | child :: rest =>
    if child.name ∈ taken then placedBelow taken (k + 1) rest
    else child.placed.map (fun placed => (k :: placed.1,placed.2)) ++ placedBelow (child.name :: taken) (k + 1) rest

end

theorem Block.placed_cons (b : Block) : b.placed = ([],b) :: placedBelow [] 0 b.children := by
  cases b
  simp only [Block.placed]

mutual

theorem Block.placed_preorder (b : Block) : b.placed.map Prod.snd = b.preorder := by
  obtain ⟨kind,name,origin,attributes,children⟩ := b
  unfold Block.placed Block.preorder
  rw [List.map_cons,placedBelow_preorder]

theorem placedBelow_preorder (taken : List String) (k : Nat) (children : List Block) :
    (placedBelow taken k children).map Prod.snd = preorderBelow taken children := by
  match children with
  | [] =>
    unfold placedBelow preorderBelow
    rfl
  | child :: rest =>
    unfold placedBelow preorderBelow
    split
    · exact placedBelow_preorder taken (k + 1) rest
    · rw [List.map_append,List.map_map,placedBelow_preorder (child.name :: taken) (k + 1) rest]
      exact congrArg (· ++ _) child.placed_preorder

end

theorem Block.placed_length (b : Block) : b.placed.length = b.preorder.length := by
  rw [← b.placed_preorder,List.length_map]

mutual

theorem Block.mem_placed (b : Block) (way : List Nat) (c : Block) : (way,c) ∈ b.placed ↔ b.Reaches way c := by
  obtain ⟨kind,name,origin,attributes,children⟩ := b
  unfold Block.placed
  rw [List.mem_cons,mem_placedBelow]
  constructor
  · rintro (own | ⟨j,child,later,rfl,placed,_,new,reached⟩)
    · cases own
      exact .here _
    · rw [Nat.zero_add]
      exact .step placed new reached
  · intro reaches
    cases reaches with
    | here => exact .inl rfl
    | step placed new later =>
      exact .inr ⟨_,_,_,by rw [Nat.zero_add],placed,List.not_mem_nil,new,later⟩

theorem mem_placedBelow (taken : List String) (k : Nat) (children : List Block) (way : List Nat) (c : Block) :
    (way,c) ∈ placedBelow taken k children ↔ ∃ j child later, way = (k + j) :: later ∧ children[j]? = some child ∧
      child.name ∉ taken ∧ child.name ∉ (children.take j).map Block.name ∧ child.Reaches later c := by
  match children with
  | [] =>
    unfold placedBelow
    simp
  | child :: rest =>
    -- a way through one of the others
    have others : ∀ taken', (∀ name, name ∈ taken' ↔ name ∈ taken ∨ name = child.name) →
        ((way,c) ∈ placedBelow taken' (k + 1) rest ↔ ∃ j other later, way = (k + (j + 1)) :: later ∧
          (child :: rest)[j + 1]? = some other ∧ other.name ∉ taken ∧
          other.name ∉ ((child :: rest).take (j + 1)).map Block.name ∧ other.Reaches later c) := by
      intro taken' known
      rw [mem_placedBelow taken' (k + 1) rest way c]
      simp only [known,not_or,List.getElem?_cons_succ,List.take_succ_cons,List.map_cons,List.mem_cons,
        Nat.add_assoc,Nat.add_comm 1]
      grind
    unfold placedBelow
    split
    · rename_i known
      rw [others taken (by grind)]
      constructor
      · rintro ⟨j,other⟩
        exact ⟨j + 1,other⟩
      · rintro ⟨j,other,later,rfl,placed,new,rest⟩
        cases j with
        | zero =>
          cases placed
          exact absurd known new
        | succ j => exact ⟨j,other,later,rfl,placed,new,rest⟩
    · rename_i fresh
      rw [List.mem_append,others (child.name :: taken) (by grind),List.mem_map]
      constructor
      · rintro (⟨⟨later,last⟩,member,same⟩ | ⟨j,other⟩)
        · cases same
          exact ⟨0,child,later,rfl,rfl,fresh,List.not_mem_nil,(child.mem_placed later last).mp member⟩
        · exact ⟨j + 1,other⟩
      · rintro ⟨j,other,later,rfl,placed,new,rest⟩
        cases j with
        | zero =>
          cases placed
          exact .inl ⟨(later,c),(child.mem_placed later c).mpr rest.2,rfl⟩
        | succ j => exact .inr ⟨j,other,later,rfl,placed,new,rest⟩

end

theorem placedBelow_stepped {taken : List String} {k : Nat} {children : List Block} {way : List Nat}
    (member : way ∈ (placedBelow taken k children).map Prod.fst) : ∃ j later, way = (k + j) :: later := by
  obtain ⟨placed,present,rfl⟩ := List.mem_map.mp member
  obtain ⟨j,child,later,stepped,_⟩ := (mem_placedBelow taken k children placed.1 placed.2).mp present
  exact ⟨j,later,stepped⟩

mutual

theorem Block.placed_sorted (b : Block) : (b.placed.map Prod.fst).Pairwise (· < ·) := by
  obtain ⟨kind,name,origin,attributes,children⟩ := b
  unfold Block.placed
  rw [List.map_cons,List.pairwise_cons]
  refine ⟨fun way member => ?_,placedBelow_sorted [] 0 children⟩
  obtain ⟨j,later,rfl⟩ := placedBelow_stepped member
  exact List.nil_lt_cons ..

theorem placedBelow_sorted (taken : List String) (k : Nat) (children : List Block) :
    ((placedBelow taken k children).map Prod.fst).Pairwise (· < ·) := by
  match children with
  | [] =>
    unfold placedBelow
    exact .nil
  | child :: rest =>
    unfold placedBelow
    split
    · exact placedBelow_sorted taken (k + 1) rest
    · rw [List.map_append,List.map_map,List.pairwise_append]
      refine ⟨?_,placedBelow_sorted (child.name :: taken) (k + 1) rest,?_⟩
      · have inside := child.placed_sorted
        rw [List.pairwise_map] at inside ⊢
        exact inside.imp fun before => List.cons_lt_cons_iff.mpr (.inr ⟨rfl,before⟩)
      · intro way first other second
        obtain ⟨placed,_,rfl⟩ := List.mem_map.mp first
        obtain ⟨j,later,rfl⟩ := placedBelow_stepped second
        exact List.cons_lt_cons_iff.mpr (.inl (by omega))

end

end DeferredAttributes
