import DeferredAttributes.Proofs.Resolution.Reported

-- A load writes no key twice: the stamps of a node's values are the numbers of its writes.
namespace DeferredAttributes
open Resolution

def Node.stamps (n : Node) : List Nat :=
  (n.entries.filter fun entry => entry.2.value.isSome).map fun entry => entry.2.modified

def Node.Stamped (n : Node) : Prop := n.stamps.Perm (List.range' 1 n.version)

theorem Node.stamps_length (n : Node) :
    n.stamps.length = n.entries.countP fun entry => entry.2.value.isSome := by
  unfold stamps
  rw [List.length_map,List.countP_eq_length_filter]

theorem Node.Stamped.version {n : Node} (stamped : n.Stamped) :
    n.version = n.entries.countP fun entry => entry.2.value.isSome := by
  have length := stamped.length_eq
  rw [n.stamps_length,List.length_range'] at length
  exact length.symm

theorem Node.Stamped.written {n : Node} (stamped : n.Stamped) {name : String} {entry : Entry}
    (found : n.entries.find? name = some entry) (blank : entry.value = none) (value : Value) (deterministic : Bool) :
    Node.Stamped { n with
      entries := n.entries.insert name
        { entry with value := some value, deterministic := deterministic, modified := n.version + 1 }
      version := n.version + 1 } := by
  obtain ⟨before,after,split,changed⟩ := Table.insert_known found
  unfold Stamped stamps at *
  rw [split] at stamped
  simp only [List.filter_append,List.filter_cons,blank,Option.isSome_none,Bool.false_eq_true,if_false,
    List.map_append] at stamped
  simp only [changed,List.filter_append,List.filter_cons,Option.isSome_some,if_true,List.map_append,List.map_cons]
  rw [List.range'_concat,Nat.one_mul,Nat.add_comm 1 n.version]
  exact List.perm_middle.trans ((stamped.cons _).trans (List.perm_append_singleton _ _).symm)

def Tree.Stamped (t : Tree) : Prop := ∀ i, (t.node i).Stamped

namespace Tree.Stamped
variable {t : Tree} (stamped : t.Stamped)
include stamped

theorem setValid (id : Nat) (valid : Bool) : (t.setValid id valid).Stamped := by
  intro i
  unfold Tree.setValid
  rw [node_modify]
  split
  · exact stamped i
  · exact stamped i

theorem put {key : Key} {entry : Entry} (found : (t.node key.node).entries.find? key.name = some entry)
    (blank : entry.value = none) (value : Value) (deterministic : Bool) :
    (t.put key entry value deterministic).Stamped := by
  intro i
  by_cases same : i = key.node
  · subst same
    rw [node_put_self found]
    exact (stamped key.node).written found blank value deterministic
  · rw [node_put_other found same]
    exact stamped i

end Tree.Stamped

section
variable {environment : Environment} {s s' last : Resolution} {rest : List Assignment} {history : List Attempt}

theorem Concludes.stamped {a : Assignment} {ending : Ending} (step : Concludes environment s rest a ending s')
    (stamped : s.tree.Stamped) : s'.tree.Stamped := by
  cases step with
  | malformed | failed | lost => exact stamped.setValid _ _
  | executed checked answered found blank =>
    have written := stamped.put found blank
    rw [succeed_tree]
    split
    · exact (written _ _).setValid _ _
    · exact written _ _

theorem Runs.stamped (run : Runs environment s rest history last) (stamped : s.tree.Stamped) :
    last.tree.Stamped := by
  induction run with
  | empty => exact stamped
  | concluded step next ih => exact ih (step.stamped stamped)
  | parked checked answered next ih => exact ih stamped
  | taken first next ih => exact ih stamped
  | @abandoned s some stuck => exact s.abandon_keeps Tree.Stamped (fun _ _ kept => kept.setValid _ _) _ stamped

end
end DeferredAttributes
