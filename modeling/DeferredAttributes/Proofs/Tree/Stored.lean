import DeferredAttributes.Proofs.Tree.Shape

-- What the keys of a tree hold, and how a write changes it.
namespace DeferredAttributes.Tree

def stored? (t : Tree) (key : Key) : Option (Value × Bool) :=
  ((t.node key.node).entries.find? key.name).bind fun entry =>
    entry.value.map fun value => (value,entry.deterministic)

def slot? (t : Tree) (key : Key) : Option Entry := (t.node key.node).entries.find? key.name

theorem SameShape.slot_isSome {t t' : Tree} (same : t.SameShape t') (key : Key) :
    (t'.slot? key).isSome = (t.slot? key).isSome := by
  have types := congrArg Option.isSome ((same.nodes key.node).types key.name)
  rwa [Option.isSome_map,Option.isSome_map] at types

theorem stored_slot (t : Tree) (key : Key) :
    t.stored? key = (t.slot? key).bind fun entry => entry.value.map fun value => (value,entry.deterministic) := rfl

section
variable {t : Tree} {key : Key} {entry : Entry} (found : t.slot? key = some entry)
include found

theorem slot_blank (blank : t.stored? key = none) : entry.value = none := by
  rw [stored_slot,found] at blank
  simpa using blank

theorem slot_solved {value : Value} {deterministic : Bool} (stored : t.stored? key = some (value,deterministic)) :
    entry.value = some value ∧ entry.deterministic = deterministic := by
  rw [stored_slot,found,Option.bind_some] at stored
  obtain ⟨content,has,same⟩ := Option.map_eq_some_iff.mp stored
  cases same
  exact ⟨has,rfl⟩

theorem stored_blank (empty : entry.value = none) : t.stored? key = none := by
  rw [stored_slot,found,Option.bind_some,empty]
  rfl

theorem stored_solved {value : Value} (has : entry.value = some value) :
    t.stored? key = some (value,entry.deterministic) := by
  rw [stored_slot,found,Option.bind_some,has]
  rfl

end

theorem slot_stored {t : Tree} {key : Key} {value : Value} {deterministic : Bool}
    (stored : t.stored? key = some (value,deterministic)) :
    (t.slot? key).map (fun entry => (entry.value,entry.deterministic)) = some (some value,deterministic) := by
  obtain ⟨entry,found,_⟩ := Option.bind_eq_some_iff.mp stored
  change t.slot? key = some entry at found
  obtain ⟨has,flag⟩ := slot_solved found stored
  rw [found,Option.map_some,has,flag]

theorem stored_value {t : Tree} {key : Key} {value : Value} :
    (t.slot? key).bind Entry.value = some value ↔ ∃ deterministic, t.stored? key = some (value,deterministic) := by
  rw [stored_slot]
  rcases t.slot? key with _ | ⟨_ | found,type,deterministic,modified⟩ <;> simp

def refusal? (t : Tree) (key : Key) (value : Value) : Option StoreError :=
  match t.slot? key with
  | none => some (.undeclared (t.displayKey key))
  | some entry =>
    if value.type? = some entry.type then none else some (.typeMismatch (t.displayKey key) entry.type value)

theorem SameShape.refusal {t t' : Tree} (same : t.SameShape t') (key : Key) (value : Value) :
    t'.refusal? key value = t.refusal? key value := by
  have types : (t'.slot? key).map Entry.type = (t.slot? key).map Entry.type := (same.nodes key.node).types key.name
  unfold refusal?
  rw [same.displayKey]
  cases before : t.slot? key <;> cases after : t'.slot? key <;> simp_all

theorem refusal_typed {t : Tree} {key : Key} {entry : Entry} {value : Value} (found : t.slot? key = some entry) :
    t.refusal? key value = none ↔ value.type? = some entry.type := by
  unfold refusal?
  rw [found]
  by_cases typed : value.type? = some entry.type <;> simp [typed]

structure Extends (t t' : Tree) : Prop where
  shape : t.SameShape t'
  kept : ∀ key content, t.stored? key = some content → t'.stored? key = some content

theorem Extends.refl (t : Tree) : t.Extends t := ⟨.refl t,fun _ _ found => found⟩

theorem Extends.trans {a b c : Tree} (left : a.Extends b) (right : b.Extends c) : a.Extends c :=
  ⟨left.shape.trans right.shape,fun key content found => right.kept key content (left.kept key content found)⟩

theorem Extends.isSome {t t' : Tree} (more : t.Extends t') {key : Key} (has : (t.stored? key).isSome = true) :
    (t'.stored? key).isSome = true := by
  obtain ⟨content,found⟩ := Option.isSome_iff_exists.mp has
  rw [more.kept key content found]
  rfl

theorem Extends.none {t t' : Tree} (more : t.Extends t') {key : Key} (blank : t'.stored? key = none) :
    t.stored? key = none := by
  cases old : t.stored? key with
  | none => rfl
  | some content =>
    have kept := more.kept key content old
    rw [blank] at kept
    cases kept

theorem slot_setValid (t : Tree) (id : Nat) (valid : Bool) (key : Key) :
    (t.setValid id valid).slot? key = t.slot? key := by
  unfold slot? setValid
  rw [node_modify]
  split <;> rfl

theorem stored_setValid (t : Tree) (id : Nat) (valid : Bool) (key : Key) :
    (t.setValid id valid).stored? key = t.stored? key := by
  rw [stored_slot,stored_slot,slot_setValid]

theorem Extends.setValid (t : Tree) (id : Nat) (valid : Bool) : t.Extends (t.setValid id valid) :=
  ⟨.setValid t id valid,fun key content found => by rw [stored_setValid,found]⟩

def put (t : Tree) (key : Key) (entry : Entry) (value : Value) (deterministic : Bool) : Tree :=
  t.modify key.node fun n =>
    { n with
      entries := n.entries.insert key.name
        { entry with value := some value, deterministic := deterministic, modified := n.version + 1 }
      version := n.version + 1 }

section
variable {t : Tree} {key : Key} {entry : Entry}
  (found : (t.node key.node).entries.find? key.name = some entry)
include found

theorem write_put (value : Value) (deterministic : Bool) :
    t.write key value deterministic = match t.refusal? key value with
      | some error => .error error
      | none => .ok (t.put key entry value deterministic) := by
  unfold write refusal? slot?
  rw [found]
  by_cases typed : value.type? = some entry.type <;> simp [typed,put]

theorem stored_of_find : t.stored? key = entry.value.map fun value => (value,entry.deterministic) := by
  unfold stored?
  rw [found]
  rfl

theorem shape_put (value : Value) (deterministic : Bool) : t.SameShape (t.put key entry value deterministic) := by
  apply SameShape.modify
  refine ⟨rfl,rfl,rfl,rfl,?_,?_⟩
  · have known : key.name ∈ (t.node key.node).entries.names := by
      rw [Table.mem_names,Table.contains,found]
      rfl
    simp only [Table.names_insert,if_pos known]
  · intro name
    simp only [Table.find_insert]
    by_cases same : name = key.name
    · subst same
      simp [found]
    · rw [if_neg same]

theorem node_put_self (value : Value) (deterministic : Bool) :
    (t.put key entry value deterministic).node key.node =
      { t.node key.node with
        entries := (t.node key.node).entries.insert key.name
          { entry with value := some value, deterministic := deterministic,
                       modified := (t.node key.node).version + 1 }
        version := (t.node key.node).version + 1 } :=
  node_modify_self t (lt_size_of_find found) _

theorem node_put_other {i : Nat} (other : i ≠ key.node) (value : Value) (deterministic : Bool) :
    (t.put key entry value deterministic).node i = t.node i :=
  have _ := found
  node_modify_other t other _

theorem slot_put (value : Value) (deterministic : Bool) (other : Key) :
    (t.put key entry value deterministic).slot? other =
      if other = key then
        some { entry with value := some value, deterministic := deterministic,
                          modified := (t.node key.node).version + 1 }
      else t.slot? other := by
  unfold slot?
  by_cases node : other.node = key.node
  · rw [node,node_put_self found]
    simp only [Table.find_insert]
    by_cases name : other.name = key.name
    · have same : other = key := by
        cases other
        cases key
        simp_all
      simp [same]
    · have different : other ≠ key := fun same => name (by rw [same])
      simp [name,different]
  · have different : other ≠ key := fun same => node (by rw [same])
    rw [node_put_other found node,if_neg different]

theorem stored_put (value : Value) (deterministic : Bool) (other : Key) :
    (t.put key entry value deterministic).stored? other =
      if other = key then some (value,deterministic) else t.stored? other := by
  rw [stored_slot,stored_slot,slot_put found]
  split <;> rfl

theorem extends_put (blank : entry.value = none) (value : Value) (deterministic : Bool) :
    t.Extends (t.put key entry value deterministic) := by
  refine ⟨shape_put found value deterministic,?_⟩
  intro other content old
  have different : other ≠ key := by
    intro same
    rw [same,stored_of_find found,blank] at old
    cases old
  rw [stored_put found,if_neg different,old]

end

section
variable {t : Tree} {key : Key} (declared : t.declares key.name key.node = true)
include declared

theorem owner_self : t.owner? key.node key.name = some key.node := by
  unfold owner?
  rw [ancestors]
  simp [declared]

theorem read_stored :
    t.read key.node key.name = match t.stored? key with
      | some (value,_) => .ok value
      | none => .error (.notInitialized key) := by
  unfold read stored?
  rw [owner_self declared]
  unfold declares Table.contains at declared
  cases found : (t.node key.node).entries.find? key.name with
  | none => simp [found] at declared
  | some entry =>
    obtain ⟨value,type,deterministic,modified⟩ := entry
    cases value <;> simp [found]

theorem isDeterministic_stored :
    t.isDeterministic key.node key.name = (t.stored? key).any fun content => content.2 := by
  unfold isDeterministic entry? stored?
  rw [owner_self declared]
  simp only [Option.bind_some]
  cases (t.node key.node).entries.find? key.name with
  | none => rfl
  | some entry =>
    obtain ⟨value,type,deterministic,modified⟩ := entry
    cases value <;> simp

end

end DeferredAttributes.Tree
