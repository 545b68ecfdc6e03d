import DeferredAttributes.Proofs.Block.Refreshed

-- What can go wrong with an attribute of a block tree, in the load and in the refreshes after it.
namespace DeferredAttributes
open Resolution

theorem Attempt.issue_told {t : Tree} {e : Attempt} {path : String} {origin : Origin} {error : ResolveError}
    (found : e.issue? t = some (.failed path origin error)) :
    (∃ reason, error = .validation reason) ∨ e.ending = .failed error := by
  unfold issue? at found
  split at found
  · obtain ⟨reason,_,same⟩ := Option.map_eq_some_iff.mp found
    cases same
    exact .inl ⟨reason,rfl⟩
  · rename_i ended
    cases found
    exact .inr ended
  · cases found

theorem Upheld.inLoad {environment : Environment} {t : Tree} {circle : List Key} {later : List Attempt} {a : Assignment}
    {type : ValueType} {ending : Ending} {error : ResolveError} (upheld : Upheld environment t circle later a ending)
    (standard : a.resolver = .ofType type) (fits : (t.slot? a.target).map Entry.type = some a.resolver.type)
    (failed : ending = .failed error) : error.inLoad = true := by
  cases upheld with
  | malformed checked =>
    cases failed
    exact Resolver.check_inLoad checked
  | failed checked answered final =>
    cases failed
    exact Assignment.answer_inLoad standard checked fits answered final
  | lost =>
    cases failed
    rfl
  | executed | abandoned => cases failed

theorem Retaining.errors {s : Resolution} (retaining : Retaining s) (environment : Environment) (root : Option Nat)
    {issue : Issue} (told : issue ∈ (s.refresh environment root).1) :
    ∃ path origin error, issue = .failed path origin error ∧ error.inRefresh = true := by
  obtain ⟨_,pass,_,report⟩ := refresh_passes environment root s
  rw [report] at told
  obtain ⟨e,member,found⟩ := List.mem_filterMap.mp told
  cases issue with
  | failed path origin error =>
    refine ⟨path,origin,error,rfl,?_⟩
    rcases Attempt.issue_told found with turned | failed
    · obtain ⟨reason,rfl⟩ := turned
      rfl
    · exact pass.errors retaining.typed (retaining.covered_renewable root) member failed
  | _ => cases (Attempt.issue_isFailed found).1

namespace Block

theorem attempt_inLoad {schema : Schema} {environment : Environment} {root : Block} {e : Attempt} {error : ResolveError}
    (member : e ∈ root.attempts schema environment) (failed : e.ending = .failed error) : error.inLoad = true := by
  have ready := root.load_open schema environment
  obtain ⟨last,run,_⟩ := root.load_keeps schema environment
  obtain ⟨later,_,upheld⟩ := (run.truthful ready).mem member
  obtain ⟨type,standard,fits⟩ := attempt_fits run member
  exact upheld.inLoad standard fits failed

-- A load fails for syntax, names, the size of a number or a value that is turned down; a refresh
-- after it only for a variable, the size of a number or a value that is turned down.
theorem load_errors (schema : Schema) (environment : Environment) (root : Block) :
    (∀ path origin error, .failed path origin error ∈ (root.load schema environment).1 → error.inLoad = true) ∧
    ∀ refreshes environment' start,
      ∀ issue ∈ (((root.load schema environment).2.refreshed refreshes).refresh environment' start).1,
        ∃ path origin error, issue = .failed path origin error ∧ error.inRefresh = true := by
  constructor
  · intro path origin error told
    obtain ⟨last,run,reported,_⟩ := root.load_runs schema environment
    rw [reported,run.issues (root.load_open schema environment),List.mem_append,List.mem_append,List.mem_append] at told
    rcases told with declared | (before | attempted) | circle
    · cases (Declared.ofBlock_silent schema root _ declared).1
    · cases before
    · obtain ⟨e,member,found⟩ := List.mem_filterMap.mp attempted
      rcases Attempt.issue_told found with turned | failed
      · obtain ⟨reason,rfl⟩ := turned
        rfl
      · exact attempt_inLoad member failed
    · unfold circleIssue at circle
      split at circle
      · cases circle
      · cases List.mem_singleton.mp circle
  · intro refreshes environment' start issue told
    exact ((root.load_retaining schema environment).refreshed refreshes).errors environment' start told

end Block

theorem load_errors_twin :
    (∃ path origin error, .failed path origin error ∈ (twin.load [] .empty).1 ∧ error.inLoad = true) ∧
    ∃ issue ∈ ((twin.load [] (fuel 1)).2.refresh .empty none).1,
      ∃ path origin error, issue = .failed path origin error ∧ error.inRefresh = true := by
  have idle : (twin.tried [] (fuel 1)).pending = [] := List.length_eq_zero_iff.mp (by decide +kernel)
  have starved : (twin.tried [] .empty).pending = [] := List.length_eq_zero_iff.mp (by decide +kernel)
  have loaded : ((twin.load [] .empty).1.any Issue.isFailed) = true := by
    change (((Declared.ofBlock [] twin).issues ++ ((twin.tried [] .empty).finish .empty).1).any Issue.isFailed) = true
    rw [finish_idle .empty starved]
    decide +kernel
  have refreshed : (((twin.load [] (fuel 1)).2.refresh .empty none).1.any Issue.isFailed) = true := by
    rw [Block.load_idle idle]
    decide +kernel
  obtain ⟨issue,told,failed⟩ := List.any_eq_true.mp loaded
  obtain ⟨issue',told',_⟩ := List.any_eq_true.mp refreshed
  constructor
  · cases issue with
    | failed path origin error => exact ⟨path,origin,error,told,(Block.load_errors [] .empty twin).1 _ _ _ told⟩
    | _ => cases failed
  · exact ⟨issue',told',(Block.load_errors [] (fuel 1) twin).2 [] .empty none issue' told'⟩

end DeferredAttributes
