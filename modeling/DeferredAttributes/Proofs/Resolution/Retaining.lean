import DeferredAttributes.Proofs.Resolution.Repeated

-- Between refreshes every retained attribute can be computed again, and the list of them is in
-- an order of dependency. A refresh leaves it so, and changes only values that may change.
namespace DeferredAttributes
open Resolution

structure Retaining (s : Resolution) : Prop where
  typed : s.tree.Typed
  renewable : ∀ a ∈ s.retained, a.Renewable s.tree
  arranged : Arranged s.tree s.retained

theorem refresh_failing (environment : Environment) (root : Option Nat) (s : Resolution) (key : Key) :
    key ∈ (s.refresh environment root).2.failures ↔ FailsLast (s.refreshHistory environment root) key ∨
      key ∈ s.failures ∧ ∀ e ∈ s.refreshHistory environment root, e.target ≠ key :=
  (Retried.fold environment root ⟨{ s with issues := [] },[],[]⟩ s.retained).failures key

theorem refresh_valid_again (environment : Environment) (root : Option Nat) (s : Resolution)
    (again : (s.refresh environment root).2.refreshHistory environment root = s.refreshHistory environment root) (i : Nat) :
    (((s.refresh environment root).2.refresh environment root).2.tree.node i).valid =
      ((s.refresh environment root).2.tree.node i).valid := by
  by_cases touched : Touched (s.refreshHistory environment root) i
  · by_cases bound : i < s.tree.nodes.size
    · have once := refresh_touched environment root s bound touched
      have twice := refresh_touched environment root (s.refresh environment root).2
        (by rwa [refresh_size]) (by rwa [again])
      simp only [refresh_failing,again,refresh_broken] at once twice
      rw [Bool.eq_iff_iff]
      grind
    · have outside := Nat.le_of_not_lt bound
      rw [Tree.node_outside,Tree.node_outside] <;> simpa only [refresh_size] using outside
  · exact refresh_untouched environment root _ (by rwa [again])

namespace Retaining
variable {s : Resolution} (retaining : Retaining s) (environment : Environment) (root : Option Nat)
include retaining

theorem covered_renewable : ∀ a ∈ s.covered root, a.Renewable s.tree :=
  fun a member => retaining.renewable a (List.mem_of_mem_filter member)

theorem covered_arranged : Arranged s.tree (s.covered root) := retaining.arranged.sublist List.filter_sublist

theorem retained : (s.refresh environment root).2.retained = s.retained :=
  Refreshing.fold_kept _ fun a member => (retaining.renewable a member).builtin

theorem revised : s.tree.Revised (s.refresh environment root).2.tree := by
  obtain ⟨last,pass,reflagged,_⟩ := refresh_passes environment root s
  exact (pass.revised retaining.typed (retaining.covered_renewable root)).trans reflagged.revised

theorem refresh : Retaining (s.refresh environment root).2 := by
  have revised := retaining.revised environment root
  refine ⟨revised.typed retaining.typed,?_,?_⟩
  · rw [retaining.retained]
    exact fun a member => (retaining.renewable a member).revised revised retaining.typed
  · rw [retaining.retained]
    exact retaining.arranged.shape revised.shape

theorem covered_same : (s.refresh environment root).2.covered root = s.covered root := by
  have same : Assignment.covered (s.refresh environment root).2.tree root = Assignment.covered s.tree root :=
    funext fun a => (retaining.revised environment root).shape.covered root a
  unfold covered
  rw [retaining.retained,same]

theorem settled : s.refreshHistory environment root =
      attemptsOver environment (s.refresh environment root).2.tree (s.covered root) ∧
    Closed environment (s.refresh environment root).2.tree (s.covered root) := by
  obtain ⟨last,pass,reflagged,_⟩ := refresh_passes environment root s
  have arranged := retaining.covered_arranged root
  obtain ⟨attempts,closed⟩ := pass.settles arranged
  obtain ⟨same,moved⟩ := attemptsOver_alike environment arranged.checked reflagged.shape reflagged.stored
  exact ⟨attempts.trans same.symm,moved closed⟩

theorem again :
    let once := s.refresh environment root
    let twice := once.2.refresh environment root
    twice.1 = once.1 ∧ twice.2.tree.unstamped = once.2.tree.unstamped := by
  intro once twice
  obtain ⟨first,closed⟩ := retaining.settled environment root
  obtain ⟨_,_,_,told⟩ := refresh_passes environment root s
  obtain ⟨last,pass,reflagged,told'⟩ := refresh_passes environment root once.2
  rw [show once.2.covered root = s.covered root from retaining.covered_same environment root] at pass
  obtain ⟨second,_,unstamped⟩ := pass.repeats (retaining.covered_arranged root).checked closed
  have again : once.2.refreshHistory environment root = s.refreshHistory environment root := second.trans first.symm
  constructor
  · have issue : Attempt.issue? once.2.tree = Attempt.issue? s.tree :=
      funext fun e => Attempt.issue_shape (retaining.revised environment root).shape e
    change twice.1 = _ at told'
    rw [told',again,issue]
    exact told.symm
  · apply Tree.unstamped_equal
    · exact refresh_size environment root once.2
    · intro i
      have flag : (last.node i).unstamped.valid = (once.2.tree.node i).unstamped.valid :=
        congrArg Node.valid (unstamped i)
      have valid : (twice.2.tree.node i).valid = (last.node i).valid :=
        (refresh_valid_again environment root s again i).trans flag.symm
      have same : twice.2.tree.node i = last.node i := (reflagged.node i).trans (by rw [valid])
      rw [same]
      exact unstamped i

end Retaining
end DeferredAttributes
