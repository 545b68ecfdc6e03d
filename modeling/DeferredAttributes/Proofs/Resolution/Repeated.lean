import DeferredAttributes.Proofs.Resolution.Passes

-- A pass made again, over the tree that it left, makes the same attempts and moves only stamps.
-- This rests on the order of the attributes: what one of them reads is not written after it.
namespace DeferredAttributes

def Entry.unstamped (entry : Entry) : Entry := { entry with modified := 0 }

def Node.unstamped (n : Node) : Node :=
  { n with
    entries := n.entries.map fun entry => (entry.1,entry.2.unstamped)
    version := 0 }

def Tree.unstamped (t : Tree) : Tree := ⟨t.nodes.map Node.unstamped⟩

structure Arranged (t : Tree) (assignments : List Assignment) : Prop where
  checked : ∀ a ∈ assignments, a.Checked
  distinct : (assignments.map Assignment.target).Nodup
  ordered : assignments.Pairwise fun earlier later => later.target ∉ earlier.reads t
  own : ∀ a ∈ assignments, a.target ∉ a.reads t

def Assignment.ending (environment : Environment) (t : Tree) (a : Assignment) : Ending :=
  match a.answer environment t with
  | .error error => .failed error
  | .ok (value,deterministic) => .executed ⟨deterministic,a.rejection value⟩

def attemptsOver (environment : Environment) (t : Tree) (assignments : List Assignment) : List Attempt :=
  assignments.map fun a => ⟨a,a.ending environment t⟩

theorem attemptsOver_alike (environment : Environment) {t t' : Tree} {assignments : List Assignment}
    (checked : ∀ a ∈ assignments, a.Checked) (shape : t.SameShape t')
    (same : ∀ key, t'.stored? key = t.stored? key) :
    attemptsOver environment t' assignments = attemptsOver environment t assignments ∧
      (Closed environment t assignments → Closed environment t' assignments) := by
  have agree : ∀ a ∈ assignments, a.answer environment t' = a.answer environment t := by
    intro a member
    obtain ⟨builtin,fine⟩ := checked a member
    exact Assignment.answer_agree builtin fine shape fun key _ => same key
  constructor
  · apply List.map_congr_left
    intro a member
    simp only [Assignment.ending,agree a member]
  · intro closed a member fine content answered
    rw [same]
    exact closed a member fine content ((agree a member).symm.trans answered)

theorem Tree.unstamped_equal {t t' : Tree} (size : t'.nodes.size = t.nodes.size)
    (nodes : ∀ i, (t'.node i).unstamped = (t.node i).unstamped) : t'.unstamped = t.unstamped := by
  unfold unstamped
  congr 1
  apply Array.ext
  · rw [Array.size_map,Array.size_map,size]
  · intro i bound bound'
    rw [Array.size_map] at bound bound'
    have same := nodes i
    unfold node at same
    rw [Array.getElem?_eq_getElem bound,Array.getElem?_eq_getElem bound'] at same
    rw [Array.getElem_map,Array.getElem_map]
    exact same

theorem Tree.unstamped_put {t : Tree} {key : Key} {entry : Entry} {value : Value} {deterministic : Bool}
    (found : t.slot? key = some entry) (stored : t.stored? key = some (value,deterministic)) (i : Nat) :
    ((t.put key entry value deterministic).node i).unstamped = (t.node i).unstamped := by
  by_cases here : i = key.node
  · subst here
    obtain ⟨has,flag⟩ := slot_solved found stored
    obtain ⟨before,after,split,changed⟩ := Table.insert_known found
    rw [node_put_self found]
    unfold Node.unstamped
    dsimp only
    rw [changed]
    conv => rhs; rw [split]
    simp [Entry.unstamped,has,flag]
  · rw [node_put_other found here]

namespace Arranged
variable {t t' : Tree} {a : Assignment} {assignments fewer rest : List Assignment}

theorem sublist (arranged : Arranged t assignments) (part : fewer.Sublist assignments) : Arranged t fewer :=
  ⟨fun a member => arranged.checked a (part.subset member),arranged.distinct.sublist (part.map _),
    arranged.ordered.sublist part,fun a member => arranged.own a (part.subset member)⟩

theorem shape (arranged : Arranged t assignments) (same : t.SameShape t') : Arranged t' assignments := by
  refine ⟨arranged.checked,arranged.distinct,?_,?_⟩
  · simp only [same.reads]
    exact arranged.ordered
  · simp only [same.reads]
    exact arranged.own

theorem tail (arranged : Arranged t (a :: rest)) : Arranged t rest := arranged.sublist (List.sublist_cons_self a rest)

theorem apart (arranged : Arranged t (a :: rest)) {key : Key} (needed : key = a.target ∨ key ∈ a.reads t) :
    ∀ b ∈ rest, b.target ≠ key := by
  intro b member same
  rcases needed with own | read
  · exact (List.nodup_cons.mp arranged.distinct).1 (List.mem_map.mpr ⟨b,member,same.trans own⟩)
  · exact (List.pairwise_cons.mp arranged.ordered).1 b member (same ▸ read)

end Arranged

namespace Passes
variable {environment : Environment} {t last : Tree} {assignments : List Assignment} {attempts : List Attempt}
  (pass : Passes environment t assignments attempts last)
include pass

theorem unwritten {key : Key} (others : ∀ a ∈ assignments, a.target ≠ key) : last.stored? key = t.stored? key := by
  rw [Tree.stored_slot,Tree.stored_slot,pass.slot]
  intro e member _
  exact others e.assignment (pass.tried ▸ List.mem_map.mpr ⟨e,member,rfl⟩)

theorem settles (arranged : Arranged t assignments) :
    attempts = attemptsOver environment last assignments ∧ Closed environment last assignments := by
  induction pass with
  | empty => exact ⟨rfl,fun _ impossible => by cases impossible⟩
  | @failed t last a rest error later answered next ih =>
    obtain ⟨attempts,closed⟩ := ih arranged.tail
    obtain ⟨builtin,checked⟩ := arranged.checked a List.mem_cons_self
    have after : a.answer environment last = .error error := by
      rw [← answered]
      exact Assignment.answer_agree builtin checked next.shape fun key read =>
        next.unwritten (arranged.apart (.inr read))
    constructor
    · rw [attempts]
      simp [attemptsOver,Assignment.ending,after]
    · intro b member
      rcases List.mem_cons.mp member with rfl | behind
      · intro _ content done
        cases after.symm.trans done
      · exact closed b behind
  | @stored t last a rest entry value deterministic later found answered next ih =>
    have shape := Tree.shape_put found value deterministic
    obtain ⟨attempts,closed⟩ := ih (arranged.tail.shape shape)
    obtain ⟨builtin,checked⟩ := arranged.checked a List.mem_cons_self
    have after : a.answer environment last = .ok (value,deterministic) := by
      rw [← answered]
      apply Assignment.answer_agree builtin checked (shape.trans next.shape)
      intro key read
      rw [next.unwritten (arranged.apart (.inr read)),Tree.stored_put found,if_neg]
      intro own
      exact arranged.own a List.mem_cons_self (own ▸ read)
    constructor
    · rw [attempts]
      simp [attemptsOver,Assignment.ending,after]
    · intro b member
      rcases List.mem_cons.mp member with rfl | behind
      · intro _ content done
        cases after.symm.trans done
        rw [next.unwritten (arranged.apart (.inl rfl)),Tree.stored_put found,if_pos rfl]
      · exact closed b behind

theorem repeats (checked : ∀ a ∈ assignments, a.Checked) (closed : Closed environment t assignments) :
    attempts = attemptsOver environment t assignments ∧ (∀ key, last.stored? key = t.stored? key) ∧
      ∀ i, (last.node i).unstamped = (t.node i).unstamped := by
  induction pass with
  | empty => exact ⟨rfl,fun _ => rfl,fun _ => rfl⟩
  | @failed t last a rest error later answered next ih =>
    obtain ⟨attempts,same⟩ := ih (fun b member => checked b (List.mem_cons_of_mem _ member))
      fun b member => closed b (List.mem_cons_of_mem _ member)
    refine ⟨?_,same⟩
    rw [attempts]
    simp [attemptsOver,Assignment.ending,answered]
  | @stored t last a rest entry value deterministic later found answered next ih =>
    have fine : ∀ b ∈ rest, b.Checked := fun b member => checked b (List.mem_cons_of_mem _ member)
    have held : t.stored? a.target = some (value,deterministic) :=
      closed a List.mem_cons_self (checked a List.mem_cons_self).checked _ answered
    have kept : ∀ key, (t.put a.target entry value deterministic).stored? key = t.stored? key := by
      intro key
      rw [Tree.stored_put found]
      split
      · rename_i own
        rw [own,held]
      · rfl
    have alike := attemptsOver_alike environment fine (Tree.shape_put found value deterministic) kept
    obtain ⟨attempts,same,nodes⟩ := ih fine (alike.2 fun b member => closed b (List.mem_cons_of_mem _ member))
    refine ⟨?_,fun key => (same key).trans (kept key),fun i => (nodes i).trans (Tree.unstamped_put found held i)⟩
    rw [attempts,alike.1]
    simp [attemptsOver,Assignment.ending,answered]

end Passes
end DeferredAttributes
