import DeferredAttributes.Resolution.Assignment

-- Attempts that wait for other attributes. Which of them are ready depends only on which
-- keys are waiting, not on the order.
namespace DeferredAttributes

structure Parked where
  assignment : Assignment
  blockers : List Key

def addNew {α : Type} [DecidableEq α] (items : List α) (item : α) : List α :=
  if item ∈ items then items else items ++ [item]

namespace Parked

def ready (p : Parked) : Bool := p.blockers.isEmpty

def targets (pending : List Parked) : List Key := pending.map fun p => p.assignment.target

def settle (keys : List Key) (p : Parked) : Parked :=
  { p with blockers := p.blockers.filter fun key => keys.contains key }

def settled (pending : List Parked) : List Parked := pending.map (settle (targets pending))

def takeReady? : List Parked → Option (Parked × List Parked)
  | [] => none
  | p :: rest =>
    if p.ready then some (p,rest) else (takeReady? rest).map fun (q,others) => (q,p :: others)

theorem takeReady_perm {pending others : List Parked} {p : Parked}
    (taken : takeReady? pending = some (p,others)) : pending.Perm (p :: others) ∧ p.ready = true := by
  induction pending generalizing p others with
  | nil => cases taken
  | cons q rest ih =>
    simp only [takeReady?] at taken
    split at taken
    · rename_i ready
      cases taken
      exact ⟨.refl _,ready⟩
    · simp only [Option.map_eq_some_iff,Prod.exists,Prod.mk.injEq] at taken
      obtain ⟨first,left,found,rfl,rfl⟩ := taken
      obtain ⟨perm,ready⟩ := ih found
      exact ⟨(perm.cons q).trans (.swap _ _ _),ready⟩

theorem targets_settled (pending : List Parked) : targets (settled pending) = targets pending := by
  simp [targets,settled,settle]

theorem settle_congr {keys others : List Key} (same : ∀ key, key ∈ keys ↔ key ∈ others) (p : Parked) :
    settle keys p = settle others p := by
  simp only [settle,List.contains_eq_mem,same]

theorem settle_settle (keys : List Key) (p : Parked) : settle keys (settle keys p) = settle keys p := by
  simp [settle]

def readyCount (pending : List Parked) : Nat := (settled pending).countP ready

-- A ready attempt that goes back with a blocker that is parked is ready no more, and
-- nothing else becomes ready.
theorem readyCount_again {pending others : List Parked} {p : Parked} {a : Assignment} {key : Key}
    (taken : takeReady? (settled pending) = some (p,others)) (kept : a.target = p.assignment.target)
    (parked : key ∈ targets (p :: others)) :
    readyCount (others ++ [⟨a,addNew p.blockers key⟩]) < readyCount pending := by
  obtain ⟨perm,ready⟩ := takeReady_perm taken
  let last : Parked := ⟨a,addNew p.blockers key⟩
  have same : ∀ k, k ∈ targets (others ++ [last]) ↔ k ∈ targets pending := by
    intro k
    rw [← targets_settled pending]
    have moved := (perm.map fun q : Parked => q.assignment.target).mem_iff (a := k)
    simp only [targets] at *
    rw [moved]
    simp [last,kept]
    grind
  have fixed : ∀ q ∈ others, settle (targets (others ++ [last])) q = q := by
    intro q member
    have old : q ∈ settled pending := perm.mem_iff.mpr (List.mem_cons_of_mem _ member)
    obtain ⟨r,-,rfl⟩ := List.mem_map.mp old
    rw [settle_congr same,settle_settle]
  have waits : (settle (targets (others ++ [last])) last).ready = false := by
    have known : key ∈ targets (others ++ [last]) := by
      rw [same,← targets_settled]
      exact ((perm.map fun q : Parked => q.assignment.target).mem_iff (a := key)).mpr parked
    have added : key ∈ addNew p.blockers key := by
      unfold addNew
      split <;> simp_all
    simp only [settle,Parked.ready,List.isEmpty_eq_false_iff,ne_eq,List.filter_eq_nil_iff,last]
    intro none
    exact none key added (by simpa using known)
  have before : readyCount pending = others.countP Parked.ready + 1 := by
    simp [readyCount,perm.countP_eq,ready]
  have after : readyCount (others ++ [last]) = others.countP Parked.ready := by
    have unchanged : others.map (settle (targets (others ++ [last]))) = others := by
      conv => rhs; rw [← List.map_id others]
      exact List.map_congr_left fixed
    simp only [readyCount,settled,List.map_append,List.countP_append,List.map_cons,List.map_nil]
    simp [unchanged,waits]
  change readyCount (others ++ [last]) < readyCount pending
  omega

end Parked

end DeferredAttributes
