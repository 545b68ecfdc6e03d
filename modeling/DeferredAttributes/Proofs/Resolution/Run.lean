import DeferredAttributes.Proofs.Resolution.History

-- Loading attributes one after the other and then finishing is a run, whatever waits for
-- what, as long as every attribute has a declared key of its own.
namespace DeferredAttributes
open Resolution

section
variable {environment : Environment} {s s' : Resolution} {rest : List Assignment} {a : Assignment} {ending : Ending}

theorem Resolution.fail_tree (s : Resolution) (a : Assignment) (error : ResolveError) :
    (s.fail a error).tree = s.tree.setValid a.target.node false := rfl

theorem Resolution.succeed_tree (s : Resolution) (a : Assignment) (done : Executed) :
    (s.succeed a done).tree = if done.rejected.isSome then s.tree.setValid a.target.node false else s.tree := by
  unfold succeed
  cases done.rejected <;> cases done.deterministic <;> rfl

theorem Resolution.succeed_extends (s : Resolution) (a : Assignment) (done : Executed) :
    s.tree.Extends (s.succeed a done).tree := by
  rw [succeed_tree]
  split
  · exact .setValid ..
  · exact .refl _

theorem Resolution.succeed_stored (s : Resolution) (a : Assignment) (done : Executed) (key : Key) :
    (s.succeed a done).tree.stored? key = s.tree.stored? key := by
  rw [succeed_tree]
  split
  · exact Tree.stored_setValid ..
  · rfl

theorem Concludes.pending (step : Concludes environment s rest a ending s') : s'.pending = s.pending := by
  cases step with
  | malformed | failed | lost => rfl
  | executed => rw [succeed_pending]

theorem Concludes.grows (step : Concludes environment s rest a ending s') : s.tree.Extends s'.tree := by
  cases step with
  | malformed | failed | lost => exact .setValid ..
  | executed checked answered found blank =>
    exact (Tree.extends_put found blank _ _).trans (succeed_extends { s with tree := _ } _ _)

theorem Concludes.untouched (step : Concludes environment s rest a ending s') {key : Key} (other : key ≠ a.target) :
    s'.tree.stored? key = s.tree.stored? key := by
  cases step with
  | malformed | failed | lost => exact Tree.stored_setValid ..
  | executed checked answered found blank =>
    rw [succeed_stored,Tree.stored_put found,if_neg other]

end

-- A parked attempt waits for one key at most. The answer that made it wait stands until
-- that key has its value.
def Parked.Waits (environment : Environment) (t : Tree) (p : Parked) : Prop :=
  p.assignment.resolver.check p.assignment.raw = .ok () ∧
    (p.blockers = [] ∨ ∃ key, p.blockers = [key] ∧
      (p.assignment.answer environment t = .error (.blocked key) ∨ (t.stored? key).isSome = true))

theorem Parked.Waits.kept {environment : Environment} {t t' : Tree} {p : Parked}
    (waits : p.Waits environment t) (builtin : p.assignment.resolver.builtin = true) (more : t.Extends t') :
    p.Waits environment t' := by
  obtain ⟨checked,free | ⟨key,one,stopped | has⟩⟩ := waits
  · exact ⟨checked,.inl free⟩
  · refine ⟨checked,.inr ⟨key,one,?_⟩⟩
    rcases Assignment.answer_stable builtin more with same | ⟨other,stopped',member⟩
    · exact .inl (same.symm.trans stopped)
    · rw [stopped] at stopped'
      cases stopped'
      exact .inr member
  · exact ⟨checked,.inr ⟨key,one,.inr (more.isSome has)⟩⟩

theorem Parked.Waits.settle {environment : Environment} {t : Tree} {p : Parked} (waits : p.Waits environment t)
    (keys : List Key) : (p.settle keys).Waits environment t := by
  obtain ⟨checked,free | ⟨key,one,reason⟩⟩ := waits
  · exact ⟨checked,.inl (by simp [Parked.settle,free])⟩
  · by_cases known : key ∈ keys
    · exact ⟨checked,.inr ⟨key,by simp [Parked.settle,one,known],reason⟩⟩
    · exact ⟨checked,.inl (by simp [Parked.settle,one,known])⟩

-- Between two steps of a run. Every attribute that is parked or to come has a blank key of
-- its own, and what is parked waits for what its text asked for.
structure Open (environment : Environment) (s : Resolution) (rest : List Assignment) : Prop where
  ready : ∀ a ∈ s.pending.map Parked.assignment ++ rest, a.Awaited s.tree
  distinct : (s.openKeys rest).Nodup
  waits : ∀ p ∈ s.pending, p.Waits environment s.tree

namespace Open
variable {environment : Environment} {s s' : Resolution} {rest : List Assignment} {a : Assignment} {ending : Ending}

theorem head (ready : Open environment s (a :: rest)) : a.Awaited s.tree :=
  ready.ready a (List.mem_append_right _ List.mem_cons_self)

theorem fresh (ready : Open environment s (a :: rest)) : a.target ∉ s.openKeys rest := by
  have distinct := ready.distinct
  unfold openKeys at distinct ⊢
  rw [List.map_cons,List.nodup_append] at distinct
  obtain ⟨_,later,apart⟩ := distinct
  intro member
  rcases List.mem_append.mp member with parked | coming
  · exact apart _ parked _ List.mem_cons_self rfl
  · exact (List.nodup_cons.mp later).1 coming

theorem concluded (ready : Open environment s (a :: rest)) (step : Concludes environment s rest a ending s') :
    Open environment s' rest := by
  have fresh := ready.fresh
  refine ⟨?_,?_,?_⟩
  · intro b member
    rw [step.pending] at member
    have old := ready.ready b (by
      rcases List.mem_append.mp member with parked | coming
      · exact List.mem_append_left _ parked
      · exact List.mem_append_right _ (List.mem_cons_of_mem _ coming))
    have other : b.target ≠ a.target := by
      intro same
      apply fresh
      rw [← same]
      rcases List.mem_append.mp member with parked | coming
      · obtain ⟨p,present,rfl⟩ := List.mem_map.mp parked
        exact List.mem_append_left _ (List.mem_map.mpr ⟨p,present,rfl⟩)
      · exact List.mem_append_right _ (List.mem_map.mpr ⟨b,coming,rfl⟩)
    exact old.kept step.grows.shape (by rw [step.untouched other,old.blank])
  · have distinct := ready.distinct
    unfold openKeys at distinct ⊢
    rw [step.pending]
    rw [List.map_cons] at distinct
    exact distinct.sublist (List.Sublist.append_left (List.sublist_cons_self _ _) _)
  · intro p member
    rw [step.pending] at member
    have builtin := (ready.ready p.assignment (List.mem_append_left _ (List.mem_map.mpr ⟨p,member,rfl⟩))).builtin
    exact (ready.waits p member).kept builtin step.grows

theorem parked {key : Key} (ready : Open environment s (a :: rest)) (checked : a.resolver.check a.raw = .ok ())
    (answered : a.answer environment s.tree = .error (.blocked key)) :
    Open environment { s with pending := s.pending ++ [⟨a,[key]⟩] } rest := by
  refine ⟨?_,?_,?_⟩
  · simpa using ready.ready
  · simpa [openKeys,Parked.targets] using ready.distinct
  · intro p member
    rcases List.mem_append.mp member with old | new
    · exact ready.waits p old
    · rw [List.mem_singleton.mp new]
      exact ⟨checked,.inr ⟨key,rfl,.inl answered⟩⟩

theorem taken {p : Parked} {others : List Parked} (ready : Open environment s [])
    (first : Parked.takeReady? (Parked.settled s.pending) = some (p,others)) :
    Open environment { s with pending := others } [p.assignment] ∧ p.Waits environment s.tree ∧ p.blockers = [] := by
  obtain ⟨perm,unblocked⟩ := Parked.takeReady_perm first
  have waits : ∀ q ∈ p :: others, q.Waits environment s.tree := by
    intro q member
    obtain ⟨old,present,rfl⟩ := List.mem_map.mp (perm.mem_iff.mpr member)
    exact (ready.waits old present).settle _
  have assignments : (s.pending.map Parked.assignment).Perm (others.map Parked.assignment ++ [p.assignment]) := by
    have moved := perm.map Parked.assignment
    have same : (Parked.settled s.pending).map Parked.assignment = s.pending.map Parked.assignment := by
      simp [Parked.settled,Parked.settle]
    rw [same] at moved
    exact moved.trans (List.perm_append_singleton _ _).symm
  refine ⟨⟨?_,?_,fun q member => waits q (List.mem_cons_of_mem _ member)⟩,waits p List.mem_cons_self,
    List.isEmpty_iff.mp unblocked⟩
  · intro b member
    apply ready.ready b
    rw [List.append_nil]
    exact assignments.mem_iff.mpr member
  · have keys := assignments.map Assignment.target
    have distinct := ready.distinct
    simp only [openKeys,Parked.targets,List.map_nil,List.append_nil] at distinct ⊢
    rw [List.map_append,List.map_map,List.map_map] at keys
    exact keys.nodup_iff.mp distinct

end Open

section
variable (environment : Environment) {s : Resolution}

theorem drain_empty (none : s.pending = []) :
    s.drain environment = s ∧ s.drainHistory environment = [] := by
  unfold drain drainHistory
  simp [none]

theorem finish_idle (none : s.pending = []) : s.finish environment = (s.issues,{ s with
    broken := ((List.range s.tree.nodes.size).filter fun i => !(s.tree.node i).valid && !s.failing i).foldl addNew s.broken
    issues := [] }) := by
  unfold finish
  rw [(drain_empty environment none).1]

theorem drain_stuck (some : s.pending ≠ []) (stuck : Parked.takeReady? (Parked.settled s.pending) = none) :
    s.drain environment = s.abandon (Parked.settled s.pending) ∧
      s.drainHistory environment = s.pending.map fun p => ⟨p.assignment,.abandoned⟩ := by
  have more : s.pending.isEmpty = false := List.isEmpty_eq_false_iff.mpr some
  unfold drain drainHistory
  rw [more,if_neg Bool.false_ne_true,if_neg Bool.false_ne_true]
  constructor
  · split
    · rfl
    · rename_i first
      rw [stuck] at first
      cases first
  · split
    · rfl
    · rename_i first
      rw [stuck] at first
      cases first

theorem drain_taken {p : Parked} {others : List Parked}
    (first : Parked.takeReady? (Parked.settled s.pending) = some (p,others)) :
    s.drain environment = (s.attempt environment p others).drain environment ∧
      s.drainHistory environment = ended p.assignment (s.attemptEnding? environment p others) ++
        (s.attempt environment p others).drainHistory environment := by
  have more : s.pending.isEmpty = false := by
    rw [List.isEmpty_eq_false_iff]
    intro none
    rw [none] at first
    cases first
  constructor
  · conv => lhs; unfold drain
    rw [more,if_neg Bool.false_ne_true]
    split
    · rename_i stuck
      rw [stuck] at first
      cases first
    · rename_i second
      rw [second] at first
      cases first
      rfl
  · conv => lhs; unfold drainHistory
    rw [more,if_neg Bool.false_ne_true]
    split
    · rename_i stuck
      rw [stuck] at first
      cases first
    · rename_i second
      rw [second] at first
      cases first
      rfl

end

section
variable {environment : Environment}

theorem drain_runs {s : Resolution} (ready : Open environment s []) :
    Runs environment s [] (s.drainHistory environment) (s.drain environment) := by
  by_cases none : s.pending = []
  · obtain ⟨drained,history⟩ := drain_empty environment none
    rw [drained,history]
    exact .empty none
  · cases first : Parked.takeReady? (Parked.settled s.pending) with
    | none =>
      obtain ⟨drained,history⟩ := drain_stuck environment none first
      rw [drained,history]
      exact .abandoned none first
    | some pair =>
      obtain ⟨p,others⟩ := pair
      obtain ⟨drained,history⟩ := drain_taken environment first
      obtain ⟨left,waits,unblocked⟩ := ready.taken first
      rw [drained,history]
      apply Runs.taken first
      rcases attempt_concludes (s := s) others left.head waits.1 unblocked with
        ⟨ending,found,step⟩ | ⟨key,answered,found,again⟩
      · rw [found]
        exact .concluded step (drain_runs (left.concluded step))
      · rw [found]
        have next := left.parked waits.1 answered
        refine Runs.parked (s := { s with pending := others }) waits.1 answered ?_
        rw [← again] at next ⊢
        exact drain_runs next
termination_by (s.pending.length,Parked.readyCount s.pending)
decreasing_by all_goals exact attempt_decreases environment s ‹_›

theorem history_runs {s : Resolution} {rest : List Assignment} (ready : Open environment s rest) :
    Runs environment s rest (history environment s rest)
      ((rest.foldl (load environment) s).drain environment) := by
  induction rest generalizing s with
  | nil => exact drain_runs ready
  | cons a rest ih =>
    unfold history
    rw [loadHistory,List.append_assoc,List.foldl_cons]
    rcases load_concludes ready.head rest with ⟨ending,found,step⟩ | ⟨key,checked,answered,found,again⟩
    · rw [found]
      exact .concluded step (ih (ready.concluded step))
    · rw [found]
      apply Runs.parked checked answered
      have next := ready.parked checked answered
      rw [← again] at next ⊢
      exact ih next

end
end DeferredAttributes
