import Mathlib.Data.List.Nodup
import DeferredAttributes.Proofs.Block.Declaring
import DeferredAttributes.Proofs.Resolution.History

-- The tree of nodes and the list of attributes that a load starts from, said in terms of the
-- block tree alone.
namespace DeferredAttributes
namespace Declared
variable {schema : Schema}

theorem ofBlock_fits (schema : Schema) (root : Block) {i : Nat} {b : Block} (found : root.preorder[i]? = some b) :
    ((ofBlock schema root).tree.node i).Fits schema b ∧ (i ≠ 0 → ((ofBlock schema root).tree.node i).name = b.name) := by
  obtain ⟨adds,fits⟩ := addBlock_adds schema root ⟨.new root.origin,[],[]⟩ 0 Nat.zero_lt_one
    (Node.blank_new ..)
  rw [Block.preorder_cons] at found
  cases i with
  | zero =>
    cases found
    exact ⟨fits,fun impossible => absurd rfl impossible⟩
  | succ i =>
    obtain ⟨below,name⟩ := adds.fits i b (by simpa using found)
    rw [show i + 1 = (Tree.new root.origin).nodes.size + i from Nat.add_comm i 1]
    exact ⟨below,fun _ => name⟩

theorem ofBlock_size (schema : Schema) (root : Block) :
    (ofBlock schema root).tree.nodes.size = root.preorder.length := by
  obtain ⟨adds,_⟩ := addBlock_adds schema root ⟨.new root.origin,[],[]⟩ 0 Nat.zero_lt_one
    (Node.blank_new ..)
  rw [Block.preorder_cons,List.length_cons,Nat.add_comm]
  exact adds.size

theorem ofBlock_assignments (schema : Schema) (root : Block) :
    (ofBlock schema root).assignments =
      root.preorder.zipIdx.flatMap fun placed => placed.1.assignments schema placed.2 := by
  obtain ⟨adds,_⟩ := addBlock_adds schema root ⟨.new root.origin,[],[]⟩ 0 Nat.zero_lt_one
    (Node.blank_new ..)
  rw [Block.preorder_cons,List.zipIdx_cons,List.flatMap_cons]
  exact adds.assignments

theorem mem_assignments {b : Block} {i : Nat} {a : Assignment} :
    a ∈ b.assignments schema i ↔ a.target.node = i ∧ b.attributes.lookup a.target.name = some a.raw ∧
      a = schema.assignment b.kind a.target a.raw := by
  unfold Block.assignments
  constructor
  · intro member
    obtain ⟨⟨name,raw⟩,first,rfl⟩ := List.mem_map.mp member
    exact ⟨rfl,(mem_firsts_lookup.mp first).2,rfl⟩
  · rintro ⟨rfl,written,equal⟩
    exact List.mem_map.mpr ⟨(a.target.name,a.raw),mem_firsts_lookup.mpr ⟨List.not_mem_nil,written⟩,equal.symm⟩

theorem mem_ofBlock {root : Block} {a : Assignment} :
    a ∈ (ofBlock schema root).assignments ↔ ∃ b, root.preorder[a.target.node]? = some b ∧
      b.attributes.lookup a.target.name = some a.raw ∧ a = schema.assignment b.kind a.target a.raw := by
  rw [ofBlock_assignments,List.mem_flatMap]
  constructor
  · rintro ⟨⟨b,i⟩,placed,member⟩
    obtain ⟨rfl,written,equal⟩ := mem_assignments.mp member
    exact ⟨b,List.mem_zipIdx_iff_getElem?.mp placed,written,equal⟩
  · rintro ⟨b,found,written,equal⟩
    exact ⟨(b,a.target.node),List.mem_zipIdx_iff_getElem?.mpr found,mem_assignments.mpr ⟨rfl,written,equal⟩⟩

theorem mem_written {root : Block} {a : Assignment} (member : a ∈ (ofBlock schema root).assignments) :
    ∃ b ∈ root.preorder, (a.target.name,a.raw) ∈ b.attributes := by
  obtain ⟨b,placed,written,_⟩ := mem_ofBlock.mp member
  obtain ⟨before,after,split,_⟩ := List.lookup_eq_some_iff.mp written
  exact ⟨b,List.mem_of_getElem? placed,by rw [split]; simp⟩

theorem ofBlock_slot (schema : Schema) (root : Block) (key : Key) :
    (ofBlock schema root).tree.slot? key = (root.preorder[key.node]?).bind fun b =>
      (b.attributes.lookup key.name).map fun _ => .blank (schema.spec b.kind key.name).type := by
  cases found : root.preorder[key.node]? with
  | some b => exact (ofBlock_fits schema root found).1.entries key.name
  | none =>
    rw [List.getElem?_eq_none_iff,← ofBlock_size schema root] at found
    unfold Tree.slot?
    rw [Tree.node_outside found]
    rfl

theorem ofBlock_ready (schema : Schema) (root : Block) :
    ∀ a ∈ (ofBlock schema root).assignments, a.Ready (ofBlock schema root).tree := by
  intro a member
  obtain ⟨b,found,written,equal⟩ := mem_ofBlock.mp member
  have slot := ofBlock_slot schema root a.target
  rw [found,Option.bind_some,written,Option.map_some] at slot
  refine ⟨?_,?_,?_⟩
  · rw [equal]
    exact Resolver.builtin_ofType _
  · change ((ofBlock schema root).tree.slot? a.target).map Entry.type = _
    rw [slot,equal]
    exact congrArg some (Resolver.type_ofType _).symm
  · rw [Tree.stored_slot,slot]
    rfl

theorem targets_nodup (schema : Schema) (blocks : List Block) (start : Nat) :
    (((blocks.zipIdx start).flatMap fun placed => placed.1.assignments schema placed.2).map Assignment.target).Nodup ∧
      ∀ a ∈ (blocks.zipIdx start).flatMap fun placed => placed.1.assignments schema placed.2,
        start ≤ a.target.node := by
  induction blocks generalizing start with
  | nil => simp
  | cons b rest ih =>
    obtain ⟨distinct,later⟩ := ih (start + 1)
    rw [List.zipIdx_cons,List.flatMap_cons]
    constructor
    · rw [List.map_append,List.nodup_append]
      refine ⟨?_,distinct,?_⟩
      · have names := firsts_nodup Prod.fst [] b.attributes
        have keys := names.map (f := fun name => (⟨start,name⟩ : Key)) fun _ _ same => (Key.mk.inj same).2
        unfold Block.assignments
        rw [List.map_map] at keys ⊢
        exact keys
      · rintro key own other member rfl
        obtain ⟨a,first,rfl⟩ := List.mem_map.mp own
        obtain ⟨a',second,same⟩ := List.mem_map.mp member
        have here := (mem_assignments.mp first).1
        have there := later a' second
        rw [same] at there
        omega
    · intro a member
      rcases List.mem_append.mp member with own | other
      · exact Nat.le_of_eq (mem_assignments.mp own).1.symm
      · exact Nat.le_of_succ_le (later a other)

theorem ofBlock_distinct (schema : Schema) (root : Block) :
    ((ofBlock schema root).assignments.map Assignment.target).Nodup := by
  rw [ofBlock_assignments]
  exact (targets_nodup schema root.preorder 0).1

end Declared
end DeferredAttributes
