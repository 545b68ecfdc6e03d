import DeferredAttributes.Tree.Lookup
import DeferredAttributes.Tree.Store

-- What stays the same of a tree while its attributes get their values: the nodes, who is below
-- whom, and which keys are declared with which type. Every path then leads to the same key.
namespace DeferredAttributes

namespace Table

theorem contains_insert {α : Type} (table : Table α) (name other : String) (content : α) :
    (table.insert name content).contains other = (other = name || table.contains other) := by
  unfold contains
  rw [find_insert]
  by_cases same : other = name <;> simp [same]

theorem mem_names {α : Type} (table : Table α) (name : String) :
    name ∈ table.names ↔ table.contains name = true := by
  induction table with
  | nil => simp [names,contains,find?]
  | cons entry rest ih =>
    obtain ⟨known,content⟩ := entry
    simp only [names,contains,find?,List.map_cons,List.mem_cons,List.lookup_cons] at *
    by_cases same : name = known
    · simp [same]
    · have different : (name == known) = false := by simpa using same
      rw [different,ih]
      simp [same]

theorem mem_insert {α : Type} {table : Table α} {name : String} {content : α} {entry : String × α}
    (member : entry ∈ table.insert name content) : entry = (name,content) ∨ entry ∈ table := by
  induction table with
  | nil => exact .inl (List.mem_singleton.mp member)
  | cons first rest ih =>
    obtain ⟨known,old⟩ := first
    unfold insert at member
    split at member
    · rename_i same
      rw [same] at member
      rcases List.mem_cons.mp member with here | later
      · exact .inl here
      · exact .inr (List.mem_cons_of_mem _ later)
    · rcases List.mem_cons.mp member with here | later
      · rw [here]
        exact .inr List.mem_cons_self
      · rcases ih later with new | old
        · exact .inl new
        · exact .inr (List.mem_cons_of_mem _ old)

theorem insert_known {α : Type} {table : Table α} {name : String} {content : α}
    (known : table.find? name = some content) :
    ∃ before after, table = before ++ (name,content) :: after ∧
      ∀ other, table.insert name other = before ++ (name,other) :: after := by
  induction table with
  | nil => cases known
  | cons entry rest ih =>
    obtain ⟨first,old⟩ := entry
    by_cases same : first = name
    · subst same
      simp only [find?,List.lookup_cons,BEq.rfl,Option.some.injEq] at known
      subst known
      exact ⟨[],rest,rfl,fun other => by simp [insert]⟩
    · have later : find? rest name = some content := by
        have different : (name == first) = false := by simpa using fun equal : name = first => same equal.symm
        simpa [find?,List.lookup_cons,different] using known
      obtain ⟨before,after,split,changed⟩ := ih later
      refine ⟨(first,old) :: before,after,by rw [split]; rfl,?_⟩
      intro other
      rw [insert,if_neg same,changed other]
      rfl

end Table

structure Node.SameShape (n n' : Node) : Prop where
  name : n'.name = n.name
  parent : n'.parent = n.parent
  children : n'.children = n.children
  origin : n'.origin = n.origin
  names : n'.entries.names = n.entries.names
  types : ∀ name, (n'.entries.find? name).map Entry.type = (n.entries.find? name).map Entry.type

theorem Node.SameShape.refl (n : Node) : n.SameShape n := ⟨rfl,rfl,rfl,rfl,rfl,fun _ => rfl⟩

theorem Node.SameShape.trans {a b c : Node} (left : a.SameShape b) (right : b.SameShape c) : a.SameShape c :=
  ⟨right.name.trans left.name,right.parent.trans left.parent,right.children.trans left.children,
    right.origin.trans left.origin,right.names.trans left.names,
    fun name => (right.types name).trans (left.types name)⟩

namespace Tree

theorem size_modify (t : Tree) (id : Nat) (change : Node → Node) :
    (t.modify id change).nodes.size = t.nodes.size := by
  simp [modify]

theorem node_modify (t : Tree) (id i : Nat) (change : Node → Node) :
    (t.modify id change).node i = if i = id ∧ id < t.nodes.size then change (t.node i) else t.node i := by
  simp only [node,modify,Array.getElem?_modify]
  by_cases same : id = i
  · subst same
    by_cases bound : id < t.nodes.size
    · simp [bound]
    · simp [bound]
  · simp [same,Ne.symm same]

theorem node_modify_self (t : Tree) {id : Nat} (bound : id < t.nodes.size) (change : Node → Node) :
    (t.modify id change).node id = change (t.node id) := by
  rw [node_modify,if_pos ⟨rfl,bound⟩]

theorem node_modify_other (t : Tree) {id i : Nat} (other : i ≠ id) (change : Node → Node) :
    (t.modify id change).node i = t.node i := by
  rw [node_modify,if_neg fun both => other both.1]

theorem node_outside {t : Tree} {i : Nat} (outside : t.nodes.size ≤ i) : t.node i = .new "" none .blank := by
  simp [node,Array.getElem?_eq_none outside]

theorem lt_size_of_find {t : Tree} {id : Nat} {name : String} {entry : Entry}
    (found : (t.node id).entries.find? name = some entry) : id < t.nodes.size := by
  apply Classical.byContradiction
  intro outside
  rw [node_outside (Nat.le_of_not_lt outside)] at found
  cases found

theorem modify_congr {t : Tree} {id : Nat} {change other : Node → Node}
    (same : change (t.node id) = other (t.node id)) : t.modify id change = t.modify id other := by
  obtain ⟨nodes⟩ := t
  unfold modify
  congr 1
  apply Array.ext
  · simp
  · intro i low high
    rw [Array.getElem_modify,Array.getElem_modify]
    split
    · rename_i here
      subst here
      have bound : id < nodes.size := by simpa using low
      have own : (⟨nodes⟩ : Tree).node id = nodes[id] := by
        unfold node
        rw [Array.getElem?_eq_getElem bound]
        rfl
      rwa [own] at same
    · rfl

theorem modify_unchanged {t : Tree} {id : Nat} {change : Node → Node} (same : change (t.node id) = t.node id) :
    t.modify id change = t := by
  have kept : t.modify id change = t.modify id fun n => n := modify_congr same
  rw [kept]
  obtain ⟨nodes⟩ := t
  unfold modify
  congr 1
  apply Array.ext
  · simp
  · intro i low high
    rw [Array.getElem_modify]
    split <;> rfl

theorem declare_known {t : Tree} {id : Nat} {name : String} {entry : Entry}
    (found : (t.node id).entries.find? name = some entry) (type : ValueType) : t.declare id name type = t := by
  apply modify_unchanged
  have known : (t.node id).entries.contains name = true := by
    unfold Table.contains
    rw [found]
    rfl
  rw [if_pos known]

structure SameShape (t t' : Tree) : Prop where
  size : t'.nodes.size = t.nodes.size
  nodes : ∀ i, (t.node i).SameShape (t'.node i)

theorem SameShape.refl (t : Tree) : t.SameShape t := ⟨rfl,fun i => .refl (t.node i)⟩

theorem SameShape.trans {a b c : Tree} (left : a.SameShape b) (right : b.SameShape c) : a.SameShape c :=
  ⟨right.size.trans left.size,fun i => (left.nodes i).trans (right.nodes i)⟩

theorem SameShape.modify (t : Tree) (id : Nat) (change : Node → Node)
    (kept : (t.node id).SameShape (change (t.node id))) : t.SameShape (t.modify id change) := by
  refine ⟨size_modify t id change,?_⟩
  intro i
  rw [node_modify]
  split
  · rename_i both
    rw [both.1]
    exact kept
  · exact .refl _

theorem SameShape.setValid (t : Tree) (id : Nat) (valid : Bool) : t.SameShape (t.setValid id valid) :=
  .modify t id _ ⟨rfl,rfl,rfl,rfl,rfl,fun _ => rfl⟩

structure SameNodes (t t' : Tree) : Prop where
  size : t'.nodes.size = t.nodes.size
  name : ∀ i, (t'.node i).name = (t.node i).name
  parent : ∀ i, (t'.node i).parent = (t.node i).parent
  children : ∀ i, (t'.node i).children = (t.node i).children
  origin : ∀ i, (t'.node i).origin = (t.node i).origin

theorem SameNodes.symm {t t' : Tree} (same : t.SameNodes t') : t'.SameNodes t :=
  ⟨same.size.symm,fun i => (same.name i).symm,fun i => (same.parent i).symm,fun i => (same.children i).symm,
    fun i => (same.origin i).symm⟩

theorem SameNodes.trans {a b c : Tree} (left : a.SameNodes b) (right : b.SameNodes c) : a.SameNodes c :=
  ⟨right.size.trans left.size,fun i => (right.name i).trans (left.name i),fun i => (right.parent i).trans (left.parent i),
    fun i => (right.children i).trans (left.children i),fun i => (right.origin i).trans (left.origin i)⟩

theorem SameShape.sameNodes {t t' : Tree} (same : t.SameShape t') : t.SameNodes t' :=
  ⟨same.size,fun i => (same.nodes i).name,fun i => (same.nodes i).parent,fun i => (same.nodes i).children,
    fun i => (same.nodes i).origin⟩

section
variable {t t' : Tree} (same : t.SameNodes t')
include same

theorem SameNodes.ancestors (i : Nat) : t'.ancestors i = t.ancestors i := by
  induction i using Nat.strongRecOn with
  | ind i ih =>
    rw [Tree.ancestors,Tree.ancestors,same.parent i]
    cases (t.node i).parent with
    | none => rfl
    | some parent =>
      dsimp only
      by_cases older : parent < i
      · rw [if_pos older,if_pos older,ih parent older]
      · rw [if_neg older,if_neg older]

theorem SameNodes.displayKey (key : Key) : t'.displayKey key = t.displayKey key := by
  unfold Tree.displayKey Tree.path
  simp only [same.ancestors,same.name]

theorem SameNodes.step (path : String) (first : Bool) (i : Nat) (segment : String) :
    t'.step path first i segment = t.step path first i segment := by
  unfold Tree.step
  simp only [same.ancestors,same.parent,same.children]

theorem SameNodes.walk (path : String) (segments : List String) (first : Bool) (i : Nat) :
    t'.walk path first i segments = t.walk path first i segments := by
  induction segments generalizing first i with
  | nil => rfl
  | cons segment rest ih =>
    simp only [Tree.walk,same.step]
    cases t.step path first i segment with
    | error error => rfl
    | ok next => exact ih false next

end

section
variable {t t' : Tree} (same : t.SameShape t')
include same

theorem SameShape.ancestors (i : Nat) : t'.ancestors i = t.ancestors i := same.sameNodes.ancestors i

theorem SameShape.displayKey (key : Key) : t'.displayKey key = t.displayKey key := same.sameNodes.displayKey key

theorem SameShape.declares (name : String) (i : Nat) : t'.declares name i = t.declares name i := by
  have types := (same.nodes i).types name
  unfold Tree.declares Table.contains
  cases before : (t.node i).entries.find? name <;> cases after : (t'.node i).entries.find? name <;>
    simp_all

theorem SameShape.owner (i : Nat) (name : String) : t'.owner? i name = t.owner? i name := by
  unfold Tree.owner?
  rw [same.ancestors]
  exact congrArg (fun test => (t.ancestors i).find? test) (funext (same.declares name))

theorem SameShape.locate (i : Nat) (path : String) : t'.locate i path = t.locate i path := by
  unfold Tree.locate
  simp only [same.sameNodes.walk,same.owner]

end

theorem locate_declares {t : Tree} {i : Nat} {path : String} {key : Key} (found : t.locate i path = .ok key) :
    t.declares key.name key.node = true := by
  unfold locate at found
  extract_lets text parts name at found
  split at found
  · cases found
  · split at found
    · cases found
    · split at found
      · rename_i owned
        cases found
        exact List.find?_some owned
      · cases found

-- A path that leads nowhere is unknown or no path; it never waits for a value.
def LeadsNowhere (path : String) (error : LookupError) : Prop :=
  error = .unknown path ∨ error = .invalidPath path

theorem step_error {t : Tree} {path : String} {first : Bool} {i : Nat} {segment : String} {error : LookupError}
    (failed : t.step path first i segment = .error error) : LeadsNowhere path error := by
  unfold step at failed
  split at failed
  · cases failed
  · split at failed
    · split at failed
      · cases failed
      · cases failed
        exact .inr rfl
    · extract_lets starts at failed
      split at failed
      · cases failed
      · cases failed
        exact .inl rfl

theorem walk_error {t : Tree} {path : String} {segments : List String} {first : Bool} {i : Nat}
    {error : LookupError} (failed : t.walk path first i segments = .error error) : LeadsNowhere path error := by
  induction segments generalizing first i with
  | nil => cases failed
  | cons segment rest ih =>
    unfold walk at failed
    split at failed
    · exact ih failed
    · rename_i stopped
      cases failed
      exact step_error stopped

theorem locate_error {t : Tree} {i : Nat} {path : String} {error : LookupError}
    (failed : t.locate i path = .error error) : LeadsNowhere path error := by
  unfold locate at failed
  extract_lets text parts name at failed
  split at failed
  · cases failed
    exact .inr rfl
  · split at failed
    · rename_i stopped
      cases failed
      exact walk_error stopped
    · split at failed
      · cases failed
      · cases failed
        exact .inl rfl

end Tree
end DeferredAttributes
