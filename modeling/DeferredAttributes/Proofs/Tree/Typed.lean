import DeferredAttributes.Proofs.Tree.Stored

-- Values have the types of their keys, whatever is added to a tree or written in it.
namespace DeferredAttributes.Tree

def Typed (t : Tree) : Prop :=
  ∀ key entry value, t.slot? key = some entry → entry.value = some value → value.type? = some entry.type

structure Fills (t t' : Tree) : Prop where
  shape : t.SameShape t'
  kept : ∀ key, (t.stored? key).isSome = true → (t'.stored? key).isSome = true

theorem Fills.refl (t : Tree) : t.Fills t := ⟨.refl t,fun _ has => has⟩

theorem Fills.trans {a b c : Tree} (left : a.Fills b) (right : b.Fills c) : a.Fills c :=
  ⟨left.shape.trans right.shape,fun key has => right.kept key (left.kept key has)⟩

theorem Extends.fills {t t' : Tree} (more : t.Extends t') : t.Fills t' := ⟨more.shape,fun _ => more.isSome⟩

theorem Fills.slots {t t' : Tree} (shape : t.SameShape t') (same : ∀ key, t'.slot? key = t.slot? key) : t.Fills t' := by
  refine ⟨shape,?_⟩
  intro key has
  rw [stored_slot,same]
  exact has

theorem Fills.setValid (t : Tree) (id : Nat) (valid : Bool) : t.Fills (t.setValid id valid) :=
  .slots (.setValid t id valid) (t.slot_setValid id valid)

theorem SameShape.typed_same {t t' : Tree} (same : t.SameShape t') (typed : t.Typed) (typed' : t'.Typed) {key : Key}
    {value value' : Value} {one two : Bool} (before : t.stored? key = some (value,one))
    (after : t'.stored? key = some (value',two)) : value'.type? = value.type? := by
  obtain ⟨entry,found,_⟩ := Option.bind_eq_some_iff.mp before
  obtain ⟨entry',found',_⟩ := Option.bind_eq_some_iff.mp after
  have types : (t'.slot? key).map Entry.type = (t.slot? key).map Entry.type := (same.nodes key.node).types key.name
  rw [show t.slot? key = some entry from found,show t'.slot? key = some entry' from found'] at types
  rw [typed key entry value found (slot_solved found before).1,
    typed' key entry' value' found' (slot_solved found' after).1,Option.some.inj types]

section
variable {t t' : Tree}

theorem Typed.kept (typed : t.Typed) (slots : ∀ key entry, t'.slot? key = some entry →
    t.slot? key = some entry ∨ entry.value = none) : t'.Typed := by
  intro key entry value found has
  rcases slots key entry found with old | blank
  · exact typed key entry value old has
  · rw [blank] at has
    cases has

theorem Typed.slots (typed : t.Typed) (same : ∀ key, t'.slot? key = t.slot? key) : t'.Typed := by
  apply typed.kept
  intro key entry found
  exact .inl ((same key).symm.trans found)

theorem slot_declare (t : Tree) (id : Nat) (name : String) (type : ValueType) (key : Key) :
    (t.declare id name type).slot? key = t.slot? key ∨
      t.slot? key = none ∧ (t.declare id name type).slot? key = some (.blank type) := by
  unfold slot? declare
  rw [node_modify]
  split
  · rename_i here
    by_cases known : (t.node key.node).entries.contains name = true
    · rw [if_pos known]
      exact .inl rfl
    · rw [if_neg known]
      simp only [Table.find_insert]
      by_cases same : key.name = name
      · rw [if_pos same]
        rw [Table.contains,Option.not_isSome_iff_eq_none] at known
        exact .inr ⟨by rw [same,known],rfl⟩
      · rw [if_neg same]
        exact .inl rfl
  · exact .inl rfl

theorem stored_declare (t : Tree) (id : Nat) (name : String) (type : ValueType) (key : Key) :
    (t.declare id name type).stored? key = t.stored? key := by
  rw [stored_slot,stored_slot]
  rcases slot_declare t id name type key with same | ⟨none,blank⟩
  · rw [same]
  · rw [none,blank]
    rfl

theorem Typed.declare (typed : t.Typed) (id : Nat) (name : String) (type : ValueType) :
    (t.declare id name type).Typed := by
  apply typed.kept
  intro key entry found
  rcases slot_declare t id name type key with same | ⟨_,blank⟩
  · exact .inl (same.symm.trans found)
  · rw [blank] at found
    cases found
    exact .inr rfl

theorem slot_addChild {id parent : Nat} {name : String} {origin : Origin}
    (added : t.addChild parent name origin = .ok (id,t')) (key : Key) : t'.slot? key = t.slot? key := by
  unfold addChild at added
  split at added
  · cases added
  · cases added
    have pushed : ((⟨t.nodes.push (.new name (some parent) origin)⟩ : Tree).node key.node).entries =
        (t.node key.node).entries := by
      unfold node
      rw [Array.getElem?_push]
      split
      · rename_i here
        rw [here,Array.getElem?_eq_none (Nat.le_refl _)]
        rfl
      · rfl
    unfold slot?
    rw [node_modify]
    split <;> rw [pushed]

theorem write_ok {key : Key} {value : Value} {deterministic : Bool} (written : t.write key value deterministic = .ok t') :
    ∃ entry, t.slot? key = some entry ∧ value.type? = some entry.type ∧ t' = t.put key entry value deterministic := by
  cases found : t.slot? key with
  | none =>
    unfold write at written
    rw [show (t.node key.node).entries.find? key.name = none from found] at written
    cases written
  | some entry =>
    rw [write_put found] at written
    cases refused : t.refusal? key value with
    | some error =>
      rw [refused] at written
      cases written
    | none =>
      rw [refused] at written
      cases written
      exact ⟨entry,rfl,(refusal_typed found).mp refused,rfl⟩

theorem write_fills {key : Key} {value : Value} {deterministic : Bool} (typed : t.Typed)
    (written : t.write key value deterministic = .ok t') :
    t'.Typed ∧ t.Fills t' ∧ (t'.stored? key).isSome = true ∧
      ∀ other, other ≠ key → t'.stored? other = t.stored? other := by
  obtain ⟨entry,found,fits,rfl⟩ := write_ok written
  refine ⟨?_,⟨shape_put found value deterministic,?_⟩,?_,?_⟩
  · intro other entry' value' found' has
    rw [slot_put found] at found'
    split at found'
    · cases found'
      cases has
      exact fits
    · exact typed other entry' value' found' has
  · intro other has
    rw [stored_put found]
    split
    · rfl
    · exact has
  · rw [stored_put found,if_pos rfl]
    rfl
  · intro other different
    rw [stored_put found,if_neg different]

end
end DeferredAttributes.Tree
