import DeferredAttributes.Proofs.Table
import DeferredAttributes.Proofs.Tree.Stored
import DeferredAttributes.Tree.Rendering

-- What the rendering of a node holds, and where the values of the nodes below are found in it.
-- A child that is named like a key of its parent takes the place of the key's value.
namespace DeferredAttributes

def Value.at? : Value → List String → Option Value
  | value, [] => some value
  | .object entries, name :: rest => (Table.find? entries name).bind fun inner => inner.at? rest
  | _, _ :: _ => none

theorem Value.at_append (value : Value) (front back : List String) :
    value.at? (front ++ back) = (value.at? front).bind fun inner => inner.at? back := by
  induction front generalizing value with
  | nil =>
    rw [List.nil_append,at?]
    rfl
  | cons name rest ih =>
    rw [List.cons_append]
    cases value with
    | object entries =>
      rw [at?,at?]
      cases Table.find? entries name with
      | none => rfl
      | some inner => exact ih inner
    | boolean | integer | decimal | string => rfl

namespace Tree

def values (t : Tree) (i : Nat) : Table Value :=
  (t.node i).entries.filterMap fun entry => entry.2.value.map fun value => (entry.1,value)

def below (t : Tree) (i : Nat) : List Nat :=
  (List.range t.nodes.size).filter fun child => (t.node child).parent = some i

def renderings (t : Tree) (i : Nat) : Table Value :=
  (t.below i).map fun child => ((t.node child).name,t.toValue child)

def namesBetween (t : Tree) (i j : Nat) : List String :=
  (((t.ancestors j).takeWhile fun k => k ≠ i).reverse).map fun k => (t.node k).name

structure Orderly (t : Tree) : Prop where
  children : ∀ i, (t.node i).children = (t.below i).map fun child => ((t.node child).name,child)
  newer : ∀ i child, (t.node child).parent = some i → i < child
  names : ∀ i, ((t.below i).map fun child => (t.node child).name).Nodup
  keys : ∀ i, (t.node i).entries.names.Nodup

theorem mem_below {t : Tree} {i child : Nat} : child ∈ t.below i ↔ (t.node child).parent = some i := by
  unfold below
  rw [List.mem_filter,List.mem_range,decide_eq_true_eq]
  constructor
  · exact And.right
  · intro above
    refine ⟨?_,above⟩
    by_contra outside
    rw [node_outside (Nat.le_of_not_lt outside)] at above
    cases above

theorem namesBetween_self (t : Tree) (i : Nat) : t.namesBetween i i = [] := by
  unfold namesBetween
  rw [ancestors]
  simp

section
variable {t : Tree} (orderly : t.Orderly)
include orderly

theorem Orderly.values_nodup (i : Nat) : (t.values i).names.Nodup := by
  have kept : (t.values i).names.Sublist (t.node i).entries.names := by
    unfold values Table.names
    rw [List.map_filterMap]
    generalize (t.node i).entries = entries
    induction entries with
    | nil => exact .slnil
    | cons entry rest ih =>
      rw [List.filterMap_cons,List.map_cons]
      cases entry.2.value with
      | none => exact ih.cons _
      | some value => exact ih.cons_cons _
  exact kept.nodup (orderly.keys i)

theorem Orderly.renderings_nodup (i : Nat) : (t.renderings i).names.Nodup := by
  unfold renderings Table.names
  rw [List.map_map]
  exact orderly.names i

theorem Orderly.find_values (key : Key) : (t.values key.node).find? key.name = (t.stored? key).map Prod.fst := by
  have stored : (t.stored? key).map Prod.fst = (t.slot? key).bind Entry.value := by
    rw [stored_slot]
    cases t.slot? key with
    | none => rfl
    | some entry => cases has : entry.value <;> simp [has]
  rw [stored]
  apply Option.ext
  intro value
  rw [Table.find_mem (orderly.values_nodup key.node)]
  unfold values
  rw [List.mem_filterMap,Option.bind_eq_some_iff]
  constructor
  · rintro ⟨⟨name,entry⟩,member,found⟩
    obtain ⟨content,has,same⟩ := Option.map_eq_some_iff.mp found
    cases same
    exact ⟨entry,(Table.find_mem (orderly.keys key.node)).mpr member,has⟩
  · rintro ⟨entry,found,has⟩
    exact ⟨(key.name,entry),(Table.find_mem (orderly.keys key.node)).mp found,by rw [has]; rfl⟩

theorem Orderly.find_renderings {i child : Nat} (above : (t.node child).parent = some i) :
    (t.renderings i).find? (t.node child).name = some (t.toValue child) :=
  (Table.find_mem (orderly.renderings_nodup i)).mpr (List.mem_map.mpr ⟨child,mem_below.mpr above,rfl⟩)

theorem Orderly.toValue_overlaid (i : Nat) : t.toValue i = .object ((t.values i).overlaid (t.renderings i)) := by
  rw [← Table.foldl_insert (orderly.values_nodup i) (orderly.renderings_nodup i),toValue]
  dsimp only
  rw [orderly.children,renderings,List.foldl_map,List.foldl_map]
  congr 1
  apply List.foldl_ext
  intro table child member
  have above := mem_below.mp member
  have bound : child < t.nodes.size := List.mem_range.mp (List.mem_filter.mp member).1
  dsimp only
  rw [if_pos ⟨orderly.newer i child above,bound⟩]

theorem Orderly.toValue_find (i : Nat) (name : String) :
    (t.toValue i).at? [name] = ((t.renderings i).find? name).or ((t.values i).find? name) := by
  rw [orderly.toValue_overlaid,Value.at?,
    Table.find_overlaid (orderly.values_nodup i) (orderly.renderings_nodup i)]
  cases ((t.renderings i).find? name).or ((t.values i).find? name) <;> rfl

theorem Orderly.toValue_append (i : Nat) :
    t.toValue i = .object (t.values i ++ t.renderings i) ↔
      ∀ name ∈ (t.values i).names, name ∉ (t.renderings i).names := by
  rw [orderly.toValue_overlaid,Value.object.injEq]
  exact Table.overlaid_append (orderly.values_nodup i) (orderly.renderings_nodup i)

theorem Orderly.namesBetween_step {i child parent : Nat} (above : (t.node child).parent = some parent)
    (other : child ≠ i) : t.namesBetween i child = t.namesBetween i parent ++ [(t.node child).name] := by
  unfold namesBetween
  conv => lhs; rw [ancestors]
  rw [above]
  dsimp only
  rw [if_pos (orderly.newer parent child above),List.takeWhile_cons]
  simp [other]

theorem Orderly.toValue_path {i j : Nat} (within : t.isWithin j i = true) :
    (t.toValue i).at? (t.namesBetween i j) = some (t.toValue j) := by
  induction j using Nat.strongRecOn with
  | ind j ih =>
    by_cases same : j = i
    · rw [same,namesBetween_self,Value.at?]
    · unfold isWithin at within
      rw [ancestors,List.contains_iff_mem,List.mem_cons] at within
      have further := within.resolve_left (Ne.symm same)
      cases above : (t.node j).parent with
      | none =>
        rw [above] at further
        cases further
      | some parent =>
        have older := orderly.newer parent j above
        rw [above] at further
        dsimp only at further
        rw [if_pos older] at further
        have found := ih parent older (List.contains_iff_mem.mpr further)
        rw [orderly.namesBetween_step above same,Value.at_append,found,Option.bind_some,orderly.toValue_find,
          orderly.find_renderings above]
        rfl

theorem Orderly.toValue_stored {i : Nat} {key : Key} {value : Value} {deterministic : Bool}
    (within : t.isWithin key.node i = true) (stored : t.stored? key = some (value,deterministic))
    (typed : value.type?.isSome = true) :
    (t.toValue i).at? (t.namesBetween i key.node ++ [key.name]) = some value ↔
      ∀ child, (t.node child).parent = some key.node → (t.node child).name ≠ key.name := by
  rw [Value.at_append,orderly.toValue_path within,Option.bind_some,orderly.toValue_find,orderly.find_values,stored]
  constructor
  · intro found child above same
    rw [← same,orderly.find_renderings above] at found
    cases found
    rw [orderly.toValue_overlaid] at typed
    cases typed
  · intro apart
    have absent : (t.renderings key.node).find? key.name = none := by
      apply Table.find_absent
      intro member
      obtain ⟨⟨_,_⟩,listed,rfl⟩ := List.mem_map.mp member
      obtain ⟨child,known,same⟩ := List.mem_map.mp listed
      exact apart child (mem_below.mp known) (congrArg Prod.fst same)
    rw [absent]
    rfl

end
end Tree
end DeferredAttributes
