import DeferredAttributes.Proofs.Resolution.Calls
import DeferredAttributes.Proofs.Resolution.Retaining

-- Which attributes count as failed after any calls. A load and a finish only add to the
-- failures. What a refresh resolves it takes off.
namespace DeferredAttributes
open Resolution

def Failed (attempts : List Attempt) (key : Key) : Prop := ∃ e ∈ attempts, e.fails = true ∧ e.target = key

structure Trial where
  attempt : Attempt
  again : Bool

namespace Trial

def target (e : Trial) : Key := e.attempt.target

def noted (e : Trial) : Bool := e.attempt.fails || e.again

end Trial

def Call.again : Call → Bool
  | .refresh .. => true
  | _ => false

def Call.trials (s : Resolution) (call : Call) : List Trial := (call.made s).map fun e => ⟨e,call.again⟩

def Call.history : Resolution → List Call → List Trial
  | _, [] => []
  | s, call :: rest => call.trials s ++ history (call.perform s) rest

def attemptsOf (trials : List Trial) : List Attempt := trials.map Trial.attempt

theorem attemptsOf_append (one two : List Trial) : attemptsOf (one ++ two) = attemptsOf one ++ attemptsOf two :=
  List.map_append

-- The key failed, and was resolved afterwards, but never by a refresh.
def Overlooked (trials : List Trial) (key : Key) : Prop :=
  ∃ before e after, trials = before ++ e :: after ∧ e.attempt.fails = true ∧ e.target = key ∧
    (∃ later ∈ after, later.target = key) ∧ ∀ later ∈ after, later.target = key → later.noted = false

section
variable {environment : Environment} {s s' last : Resolution} {a : Assignment} {ending : Option Ending}
  {attempts : List Attempt} {key : Key}

theorem failed_append {one two : List Attempt} : Failed (one ++ two) key ↔ Failed one key ∨ Failed two key := by
  simp [Failed,or_and_right,exists_or]

theorem failed_single {e : Attempt} : Failed [e] key ↔ e.fails = true ∧ e.target = key := by
  simp [Failed]

theorem Tries.failures (tried : Tries environment s a ending s') :
    key ∈ s'.failures ↔ key ∈ s.failures ∨ Failed (ended a ending) key := by
  cases tried with
  | failed error =>
    have single : ended a (some (.failed error)) = [⟨a,.failed error⟩] := rfl
    rw [single,failed_single]
    simp [Resolution.fail,mem_addNew,Attempt.fails,Attempt.target,eq_comm]
  | @executed done t executed =>
    have single : ended a (some (.executed done)) = [⟨a,.executed done⟩] := rfl
    rw [Recorded.succeed_failures,single,failed_single]
    cases rejected : done.rejected <;> simp [Assignment.asked,mem_addNew,Attempt.fails,Attempt.target,rejected,eq_comm]
  | waits pending => simp [Failed,ended]

theorem Drains.failures (drains : Drains environment s attempts last) :
    key ∈ last.failures ↔ key ∈ s.failures ∨ Failed attempts key := by
  induction drains with
  | idle => simp [Failed]
  | @abandoned s pending =>
    change key ∈ pending.foldl (fun keys p => addNew keys p.assignment.target) s.failures ↔ _
    rw [← List.foldl_map,mem_foldl_addNew]
    simp [Failed,Attempt.fails,Attempt.target]
  | round tried next ih =>
    rw [ih,tried.failures,failed_append,or_assoc]

theorem failsLast_failing (failing : ∀ e ∈ attempts, e.fails = true) : FailsLast attempts key ↔ Failed attempts key := by
  constructor
  · intro fails
    obtain ⟨e,found,fails⟩ := fails
    exact ⟨e,(latest_mem found).1,fails,(latest_mem found).2⟩
  · intro failed
    obtain ⟨e,member,_,same⟩ := failed
    cases found : latest? attempts key with
    | none => exact absurd same (latest_none.mp found e member)
    | some e' => exact ⟨e',found,failing e' (latest_mem found).1⟩

theorem failures_added (added : key ∈ s'.failures ↔ key ∈ s.failures ∨ Failed attempts key) :
    let noted := attempts.filter Attempt.fails
    key ∈ s'.failures ↔ FailsLast noted key ∨ key ∈ s.failures ∧ ∀ e ∈ noted, e.target ≠ key := by
  have failing : FailsLast (attempts.filter Attempt.fails) key ↔ Failed attempts key := by
    rw [failsLast_failing fun e member => (List.mem_filter.mp member).2]
    simp [Failed,and_assoc]
  have absent : (∀ e ∈ attempts.filter Attempt.fails, e.target ≠ key) ↔ ¬Failed attempts key := by
    simp [Failed]
  dsimp only
  rw [added,failing,absent]
  by_cases failed : Failed attempts key <;> simp [failed]

theorem Call.noted_made (call : Call) (s : Resolution) : attemptsOf ((call.trials s).filter Trial.noted) =
    (call.made s).filter fun e => e.fails || call.again := by
  simp [attemptsOf,trials,List.filter_map,Function.comp_def,Trial.noted]

theorem Call.perform_failures (call : Call) (s : Resolution) (key : Key) :
    let noted := attemptsOf ((call.trials s).filter Trial.noted)
    key ∈ (call.perform s).failures ↔ FailsLast noted key ∨ key ∈ s.failures ∧ ∀ e ∈ noted, e.target ≠ key := by
  dsimp only
  rw [call.noted_made]
  cases call with
  | addChild parent name origin =>
    cases added : s.tree.addChild parent name origin <;> simp [perform,added,made,FailsLast,latest?]
  | declare node name type => simp [perform,made,FailsLast,latest?]
  | write target value deterministic =>
    cases written : s.tree.write target value deterministic <;> simp [perform,written,made,FailsLast,latest?]
  | load environment a =>
    simp only [again,Bool.or_false]
    exact failures_added (load_tries environment s a).failures
  | finish environment =>
    simp only [again,Bool.or_false]
    exact failures_added (drain_drains environment s).failures
  | refresh environment root =>
    simp only [again,Bool.or_true,List.filter_true]
    exact refresh_failing environment root s key

theorem Call.history_failures (calls : List Call) (s : Resolution) (key : Key) :
    let noted := attemptsOf ((history s calls).filter Trial.noted)
    key ∈ (calls.foldl perform s).failures ↔ FailsLast noted key ∨ key ∈ s.failures ∧ ∀ e ∈ noted, e.target ≠ key := by
  induction calls generalizing s with
  | nil => simp [history,attemptsOf,FailsLast,latest?]
  | cons call rest ih =>
    have now := call.perform_failures s key
    have later := ih (call.perform s)
    dsimp only at now later ⊢
    rw [List.foldl_cons,later,now,history,List.filter_append,attemptsOf_append,failsLast_append]
    simp only [List.mem_append,or_imp,forall_and]
    rw [or_and_right,and_assoc,or_assoc]

end

section
variable (keep : Trial → Bool) (kept : ∀ e, e.attempt.fails = true → keep e = true) (trials : List Trial) (key : Key)
include kept

theorem failsLast_kept : FailsLast (attemptsOf (trials.filter keep)) key ↔
    ∃ before e after, trials = before ++ e :: after ∧ e.attempt.fails = true ∧ e.target = key ∧
      ∀ later ∈ after, later.target = key → keep later = false := by
  induction trials with
  | nil => simp [attemptsOf,FailsLast,latest?]
  | cons first rest ih =>
    -- the last failure is the first of all, or lies in the rest
    have split : (∃ before e after, first :: rest = before ++ e :: after ∧ e.attempt.fails = true ∧ e.target = key ∧
          ∀ later ∈ after, later.target = key → keep later = false) ↔
        (first.attempt.fails = true ∧ first.target = key ∧ ∀ later ∈ rest, later.target = key → keep later = false) ∨
          FailsLast (attemptsOf (rest.filter keep)) key := by
      rw [ih]
      constructor
      · intro found
        obtain ⟨before,e,after,same,facts⟩ := found
        cases before with
        | nil =>
          cases same
          exact .inl facts
        | cons _ before =>
          cases same
          exact .inr ⟨before,e,after,rfl,facts⟩
      · intro found
        rcases found with facts | ⟨before,e,after,rfl,facts⟩
        · exact ⟨[],first,rest,rfl,facts⟩
        · exact ⟨first :: before,e,after,rfl,facts⟩
    have quiet : (∀ later ∈ rest, later.target = key → keep later = false) ↔
        ∀ e ∈ attemptsOf (rest.filter keep), e.target ≠ key := by
      simp only [attemptsOf,List.mem_map,List.mem_filter,forall_exists_index,and_imp,Trial.target]
      grind
    rw [split,quiet]
    cases keeps : keep first with
    | true =>
      have single : attemptsOf ((first :: rest).filter keep) = [first.attempt] ++ attemptsOf (rest.filter keep) := by
        rw [List.filter_cons_of_pos keeps]
        rfl
      rw [single,failsLast_append,failsLast_single,or_comm,and_assoc]
      rfl
    | false =>
      have succeeds : first.attempt.fails ≠ true := fun fails => by simp [kept first fails] at keeps
      rw [List.filter_cons_of_neg (by simp [keeps])]
      simp [succeeds]

end

section
variable {trials : List Trial} {key : Key}

theorem Overlooked.resolved (overlooked : Overlooked trials key) : ¬FailsLast (attemptsOf trials) key := by
  obtain ⟨before,e,after,rfl,_,_,⟨later,member,here⟩,quiet⟩ := overlooked
  have split : attemptsOf (before ++ e :: after) = attemptsOf (before ++ [e]) ++ attemptsOf after := by
    simp [attemptsOf]
  rw [split,failsLast_append]
  intro fails
  rcases fails with ⟨last,found,fails⟩ | ⟨_,absent⟩
  · obtain ⟨among,again⟩ := latest_mem found
    obtain ⟨d,member,rfl⟩ := List.mem_map.mp among
    have noted := quiet d member again
    simp [Trial.noted,fails] at noted
  · exact absent later.attempt (List.mem_map.mpr ⟨later,member,rfl⟩) here

theorem noted_failsLast : FailsLast (attemptsOf (trials.filter Trial.noted)) key ↔
    FailsLast (attemptsOf trials) key ∨ Overlooked trials key := by
  have noted : ∀ e : Trial, e.attempt.fails = true → e.noted = true := fun e fails => by simp [Trial.noted,fails]
  have all := failsLast_kept (fun _ => true) (fun _ _ => rfl) trials key
  rw [List.filter_true] at all
  rw [failsLast_kept Trial.noted noted,all]
  constructor
  · intro found
    obtain ⟨before,e,after,same,fails,here,quiet⟩ := found
    by_cases resolved : ∃ later ∈ after, later.target = key
    · exact .inr ⟨before,e,after,same,fails,here,resolved,quiet⟩
    · exact .inl ⟨before,e,after,same,fails,here,fun later member again => absurd ⟨later,member,again⟩ resolved⟩
  · intro found
    rcases found with ⟨before,e,after,same,fails,here,last⟩ | ⟨before,e,after,same,fails,here,_,quiet⟩
    · refine ⟨before,e,after,same,fails,here,?_⟩
      intro later member again
      cases last later member again
    · exact ⟨before,e,after,same,fails,here,quiet⟩

end

theorem Call.started_failures (t : Tree) (calls : List Call) (key : Key) :
    key ∈ (calls.foldl perform (.start t)).failures ↔
      FailsLast (attemptsOf (history (.start t) calls)) key ∨ Overlooked (history (.start t) calls) key := by
  have noted := history_failures calls (.start t) key
  have none : (Resolution.start t).failures = [] := rfl
  dsimp only at noted
  rw [noted,noted_failsLast,none]
  simp

-- The failures are the keys whose last attempt failed, and those that failed once and were
-- resolved afterwards, but not by a refresh.
theorem session_failures (t : Tree) (calls : List Call) :
    let s := calls.foldl Call.perform (.start t)
    let trials := Call.history (.start t) calls
    (∀ key, (key ∈ s.failures ↔ FailsLast (attemptsOf trials) key ∨ Overlooked trials key) ∧
      ((key ∈ s.failures ↔ FailsLast (attemptsOf trials) key) ↔ ¬Overlooked trials key)) ∧
    ∀ environment root i, i < s.tree.nodes.size → Touched (s.refreshHistory environment root) i →
      let later := Call.history (.start t) (calls ++ [.refresh environment root])
      (((s.refresh environment root).2.tree.node i).valid = false ↔
        Failing (attemptsOf later) i ∨ (∃ key, key.node = i ∧ Overlooked later key) ∨ i ∈ s.broken) := by
  intro s trials
  refine ⟨?_,?_⟩
  · intro key
    have listed : key ∈ s.failures ↔ FailsLast (attemptsOf trials) key ∨ Overlooked trials key :=
      Call.started_failures t calls key
    refine ⟨listed,?_⟩
    rw [listed]
    by_cases overlooked : Overlooked trials key
    · simp [overlooked,overlooked.resolved]
    · simp [overlooked]
  · intro environment root i bound touched later
    have after : ∀ key, key ∈ (s.refresh environment root).2.failures ↔
        FailsLast (attemptsOf later) key ∨ Overlooked later key := by
      intro key
      have all := Call.started_failures t (calls ++ [.refresh environment root]) key
      rwa [List.foldl_append] at all
    rw [refresh_touched environment root s bound touched,← or_assoc]
    simp only [after,Failing,and_or_left,exists_or,and_comm]

-- An attribute without an answer, one that a refresh runs again, and the first once more.
def reloaded : List Call :=
  [.load (.ofTable [("fuel",2)]) ⟨⟨0,"speed"⟩,"nowhere",.expression .decimal,none,false⟩,
    .load (.ofTable [("fuel",2)]) ⟨⟨0,"range"⟩,"$fuel",.expression .decimal,none,false⟩,
    .load (.ofTable [("fuel",2)]) ⟨⟨0,"speed"⟩,"1",.expression .decimal,none,false⟩]

theorem session_failures_reloaded :
    let s := Call.session .blank reloaded
    let later := Call.history (.start (.new .blank)) (reloaded ++ [.refresh (.ofTable [("fuel",2)]) none])
    (0 < s.tree.nodes.size ∧ Touched (s.refreshHistory (.ofTable [("fuel",2)]) none) 0) ∧
      (((s.refresh (.ofTable [("fuel",2)]) none).2.tree.node 0).valid = false ↔
        Failing (attemptsOf later) 0 ∨ (∃ key, key.node = 0 ∧ Overlooked later key) ∨ 0 ∈ s.broken) := by
  intro s later
  have some : 0 < s.tree.nodes.size := by decide +kernel
  have touched : Touched (s.refreshHistory (.ofTable [("fuel",2)]) none) 0 := by
    unfold Touched
    decide +kernel
  exact ⟨⟨some,touched⟩,(session_failures (.new .blank) reloaded).2 _ none 0 some touched⟩

-- The refresh takes the root for invalid, although the last attempt at each of its keys succeeded.
theorem reloaded_stays_invalid :
    let s := Call.session .blank (reloaded ++ [.refresh (.ofTable [("fuel",2)]) none])
    let attempts := attemptsOf (Call.history (.start (.new .blank)) (reloaded ++ [.refresh (.ofTable [("fuel",2)]) none]))
    (latest? attempts ⟨0,"speed"⟩).map Attempt.fails = some false ∧ s.failures = [⟨0,"speed"⟩] ∧
      (latest? attempts ⟨0,"range"⟩).map Attempt.fails = some false ∧ (s.tree.node 0).valid = false ∧ s.broken = [] := by
  decide +kernel

end DeferredAttributes
