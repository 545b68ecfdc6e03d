import DeferredAttributes.Proofs.Resolution.Solution

-- The report of a load, read off its attempts.
namespace DeferredAttributes
open Resolution

def Issue.isFailed : Issue → Bool
  | .failed .. => true
  | _ => false

def Issue.circle? : Issue → Option (List (String × List String))
  | .circularDependency waiting => some waiting
  | _ => none

theorem Attempt.issue_shape {t t' : Tree} (same : t.SameShape t') (e : Attempt) : e.issue? t' = e.issue? t := by
  unfold issue? Assignment.issue
  simp only [same.displayKey,(same.nodes _).origin]

theorem Attempt.issue_isFailed {t : Tree} {e : Attempt} {issue : Issue} (found : e.issue? t = some issue) :
    issue.isFailed = true ∧ issue.circle? = none := by
  unfold issue? at found
  split at found
  · obtain ⟨reason,_,rfl⟩ := Option.map_eq_some_iff.mp found
    exact ⟨rfl,rfl⟩
  · cases found
    exact ⟨rfl,rfl⟩
  · cases found

section
variable {environment : Environment} {s s' last : Resolution} {rest : List Assignment} {history : List Attempt}

theorem Resolution.succeed_issues (s : Resolution) (a : Assignment) (done : Executed) :
    (s.succeed a done).issues = s.issues ++ (Attempt.issue? s.tree ⟨a,.executed done⟩).toList := by
  obtain ⟨deterministic,rejected⟩ := done
  cases rejected <;> cases deterministic <;> simp [succeed,Resolution.fail,Attempt.issue?]

theorem Concludes.issues {a : Assignment} {ending : Ending} (step : Concludes environment s rest a ending s') :
    s'.issues = s.issues ++ (Attempt.issue? s.tree ⟨a,ending⟩).toList := by
  cases step with
  | malformed | failed | lost => rfl
  | executed checked answered found blank =>
    rw [succeed_issues,Attempt.issue_shape (Tree.shape_put found _ _)]

theorem Assignment.waitsFor_blocked {t : Tree} {a : Assignment} {key : Key}
    (answered : a.answer environment t = .error (.blocked key)) : a.waitsFor environment t = [key] := by
  unfold waitsFor
  rw [answered]

theorem circleIssue_cons {t : Tree} {a : Assignment} {ending : Ending} (other : ending ≠ .abandoned)
    (later : List Attempt) : circleIssue environment t (⟨a,ending⟩ :: later) = circleIssue environment t later := by
  unfold circleIssue
  rw [abandonedOf_cons other]

theorem circleIssue_given {t : Tree} (given : abandonedOf history ≠ []) :
    circleIssue environment t history = [.circularDependency ((abandonedOf history).map fun a =>
      (t.displayKey a.target,(a.waitsFor environment t).map t.displayKey))] := by
  unfold circleIssue
  split
  · rename_i none
    exact absurd none given
  · rfl

theorem Open.stuck_waiting (ready : Open environment s [])
    (stuck : Parked.takeReady? (Parked.settled s.pending) = none) :
    (Parked.settled s.pending).map (fun p =>
        (s.tree.displayKey p.assignment.target,p.blockers.map s.tree.displayKey)) =
      (s.pending.map Parked.assignment).map fun a =>
        ((s.abandon (Parked.settled s.pending)).tree.displayKey a.target,
          (a.waitsFor environment (s.abandon (Parked.settled s.pending)).tree).map
            (s.abandon (Parked.settled s.pending)).tree.displayKey) := by
  have shape := (abandon_extends s (Parked.settled s.pending)).shape
  conv => lhs; unfold Parked.settled
  rw [List.map_map,List.map_map]
  apply List.map_congr_left
  intro p member
  obtain ⟨key,_,one,_,answered⟩ := ready.stuck_answer stuck member
  simp only [Function.comp_apply,one,Assignment.waitsFor_blocked answered,List.map_cons,List.map_nil,
    shape.displayKey]
  rfl

theorem Open.stuck_issues (ready : Open environment s []) (some : s.pending ≠ [])
    (stuck : Parked.takeReady? (Parked.settled s.pending) = none) :
    (s.abandon (Parked.settled s.pending)).issues = s.issues ++
      circleIssue environment (s.abandon (Parked.settled s.pending)).tree
        (s.pending.map fun p => ⟨p.assignment,.abandoned⟩) := by
  have given : abandonedOf (s.pending.map fun p => ⟨p.assignment,.abandoned⟩) ≠ [] := by
    rw [abandonedOf_map]
    exact fun none => some (List.map_eq_nil_iff.mp none)
  rw [circleIssue_given given,abandonedOf_map,← ready.stuck_waiting stuck]
  rfl

theorem Runs.issues (ready : Open environment s rest) (run : Runs environment s rest history last) :
    last.issues = s.issues ++ history.filterMap (Attempt.issue? last.tree) ++
      circleIssue environment last.tree history := by
  induction run with
  | empty => simp [circleIssue,abandonedOf]
  | concluded step next ih =>
    have shape := (step.grows.trans next.grows).shape
    rw [ih (ready.concluded step),step.issues,circleIssue_cons step.not_abandoned,List.filterMap_cons,
      Attempt.issue_shape shape]
    cases Attempt.issue? _ _ <;> simp
  | parked checked answered next ih => exact ih (ready.parked checked answered)
  | taken first next ih => exact ih (ready.taken first).1
  | @abandoned s some stuck =>
    have silent : (s.pending.map fun p => (⟨p.assignment,.abandoned⟩ : Attempt)).filterMap
        (Attempt.issue? (s.abandon (Parked.settled s.pending)).tree) = [] := by
      rw [List.filterMap_eq_nil_iff]
      intro e member
      obtain ⟨p,_,rfl⟩ := List.mem_map.mp member
      rfl
    rw [silent,List.append_nil,ready.stuck_issues some stuck]

theorem Runs.issues_failed (ready : Open environment s rest) (run : Runs environment s rest history last) :
    last.issues.filter Issue.isFailed =
      s.issues.filter Issue.isFailed ++ history.filterMap (Attempt.issue? last.tree) := by
  have own : (history.filterMap (Attempt.issue? last.tree)).filter Issue.isFailed =
      history.filterMap (Attempt.issue? last.tree) := by
    rw [List.filter_eq_self]
    intro issue member
    obtain ⟨e,_,found⟩ := List.mem_filterMap.mp member
    exact (Attempt.issue_isFailed found).1
  have circle : (circleIssue environment last.tree history).filter Issue.isFailed = [] := by
    unfold circleIssue
    split <;> rfl
  rw [run.issues ready,List.filter_append,List.filter_append,own,circle,List.append_nil]

theorem Runs.issues_circle (ready : Open environment s rest) (run : Runs environment s rest history last) :
    last.issues.filterMap Issue.circle? =
      s.issues.filterMap Issue.circle? ++ (circleIssue environment last.tree history).filterMap Issue.circle? := by
  have silent : (history.filterMap (Attempt.issue? last.tree)).filterMap Issue.circle? = [] := by
    rw [List.filterMap_eq_nil_iff]
    intro issue member
    obtain ⟨e,_,found⟩ := List.mem_filterMap.mp member
    exact (Attempt.issue_isFailed found).2
  rw [run.issues ready,List.filterMap_append,List.filterMap_append,silent,List.append_nil]

theorem Runs.circles {t : Tree} (ready : Open environment (.start t) rest)
    (run : Runs environment (.start t) rest history last) :
    last.issues.filterMap Issue.circle? = match abandonedOf history with
      | [] => []
      | given => [given.map fun a =>
          (last.tree.displayKey a.target,(a.waitsFor environment last.tree).map last.tree.displayKey)] := by
  have before : (start t).issues.filterMap Issue.circle? = [] := rfl
  rw [run.issues_circle ready,before,List.nil_append]
  unfold circleIssue
  cases abandonedOf history <;> rfl

end

structure Stands (environment : Environment) (t : Tree) (circle : List Key) (later : List Attempt) (a : Assignment)
    (ending : Ending) : Prop where
  upheld : Upheld environment t circle later a ending
  fits : ∀ {value : Value}, (a.resolver.resolve a.raw ⟨t,a.target.node,environment⟩ false).1 = .ok value →
    t.refusal? a.target value = none

section
variable {environment : Environment} {t : Tree} {circle : List Key} {later : List Attempt} {a : Assignment}
  {ending : Ending} (stands : Stands environment t circle later a ending)
include stands

theorem Stands.solved {content : Value × Bool} (stored : t.stored? a.target = some content) :
    a.answer environment t = .ok content :=
  stands.upheld.solved stored

theorem Stands.unsolved (checked : a.resolver.check a.raw = .ok ()) (blank : t.stored? a.target = none) :
    ∃ error, (a.resolver.resolve a.raw ⟨t,a.target.node,environment⟩ false).1 = .error error := by
  obtain ⟨error,answered⟩ := stands.upheld.unsolved checked blank
  unfold Assignment.answer at answered
  rcases resolved : a.resolver.resolve a.raw ⟨t,a.target.node,environment⟩ false with ⟨failed | value,read⟩
  · exact ⟨failed,rfl⟩
  · rw [resolved] at answered
    simp only [stands.fits (congrArg Prod.fst resolved)] at answered
    cases answered

end

def Resolution.loaded (environment : Environment) (t : Tree) (assignments : List Assignment) : Report × Resolution :=
  (assignments.foldl (load environment) (.start t)).finish environment

section
variable (environment : Environment) {t : Tree} {assignments : List Assignment}

theorem awaited_open (awaited : ∀ a ∈ assignments, a.Awaited t) (distinct : (assignments.map Assignment.target).Nodup) :
    Open environment (.start t) assignments :=
  ⟨awaited,distinct,by intro p member; cases member⟩

theorem start_open (ready : ∀ a ∈ assignments, a.Ready t) (distinct : (assignments.map Assignment.target).Nodup) :
    Open environment (.start t) assignments :=
  awaited_open environment (fun a member => (ready a member).awaited) distinct

theorem Open.loaded (first : Open environment (.start t) assignments) :
    ∃ last, Runs environment (.start t) assignments (history environment (.start t) assignments) last ∧
      (loaded environment t assignments).1 = last.issues ∧
      (loaded environment t assignments).2.tree = last.tree ∧
      (loaded environment t assignments).2.pending = last.pending ∧
      (loaded environment t assignments).2.retained = last.retained ∧
      (loaded environment t assignments).2.failures = last.failures ∧
      ∀ i, i ∈ (loaded environment t assignments).2.broken ↔
        i < last.tree.nodes.size ∧ (last.tree.node i).valid = false ∧ ¬∃ key ∈ last.failures, key.node = i := by
  have run := history_runs first
  have none := (run.recorded first).broken
  refine ⟨_,run,rfl,rfl,rfl,rfl,rfl,?_⟩
  intro i
  change i ∈ List.foldl addNew _ _ ↔ _
  generalize (assignments.foldl (load environment) (.start t)).drain environment = last at *
  rw [mem_foldl_addNew,none,← failing_iff]
  simp [start,failing]

theorem loaded_runs (ready : ∀ a ∈ assignments, a.Ready t) (distinct : (assignments.map Assignment.target).Nodup) :
    ∃ last, Runs environment (.start t) assignments (history environment (.start t) assignments) last ∧
      (loaded environment t assignments).1 = last.issues ∧
      (loaded environment t assignments).2.tree = last.tree ∧
      (loaded environment t assignments).2.pending = last.pending ∧
      (loaded environment t assignments).2.retained = last.retained ∧
      (loaded environment t assignments).2.failures = last.failures ∧
      ∀ i, i ∈ (loaded environment t assignments).2.broken ↔
        i < last.tree.nodes.size ∧ (last.tree.node i).valid = false ∧ ¬∃ key ∈ last.failures, key.node = i :=
  (start_open environment ready distinct).loaded environment

theorem loaded_stands (ready : ∀ a ∈ assignments, a.Ready t) (distinct : (assignments.map Assignment.target).Nodup)
    {a : Assignment} (member : a ∈ assignments) :
    ∃ circle later ending, Stands environment (loaded environment t assignments).2.tree circle later a ending := by
  obtain ⟨last,run,_,tree,_⟩ := loaded_runs environment ready distinct
  have known := run.once.mem_iff.mpr (List.mem_append_right _ member)
  obtain ⟨e,present,rfl⟩ := List.mem_map.mp known
  obtain ⟨later,_,upheld⟩ := (run.truthful (start_open environment ready distinct)).mem present
  rw [tree]
  exact ⟨_,_,_,upheld,(ready _ member).fits run.grows.shape⟩

theorem loaded_shape (ready : ∀ a ∈ assignments, a.Ready t) (distinct : (assignments.map Assignment.target).Nodup) :
    t.SameShape (loaded environment t assignments).2.tree := by
  obtain ⟨last,run,_,tree,_⟩ := loaded_runs environment ready distinct
  rw [tree]
  exact run.grows.shape

end
end DeferredAttributes
