import DeferredAttributes.Proofs.Resolution.Reported

-- What refreshes do to the failures and to the flags of nodes, read off the attempts that
-- they make. A refresh makes one attempt at every retained attribute that it covers.
namespace DeferredAttributes
open Resolution

namespace Resolution

def Refreshing.attempt? (environment : Environment) (root : Option Nat) (r : Refreshing) (a : Assignment) :
    Option Attempt :=
  if root.any fun root => !r.state.tree.isWithin a.target.node root then none else
  match a.execute environment r.state.tree with
  | .ok (done,_) => some ⟨a,.executed done⟩
  | .error error => some ⟨a,.failed error⟩

def Refreshing.history (environment : Environment) (root : Option Nat) : Refreshing → List Assignment → List Attempt
  | _, [] => []
  | r, a :: rest => (r.attempt? environment root a).toList ++ history environment root (r.step environment root a) rest

def refreshHistory (environment : Environment) (root : Option Nat) (s : Resolution) : List Attempt :=
  Refreshing.history environment root ⟨{ s with issues := [] },[],[]⟩ s.retained

end Resolution

def latest? (attempts : List Attempt) (key : Key) : Option Attempt :=
  attempts.reverse.find? fun e => e.target = key

def FailsLast (attempts : List Attempt) (key : Key) : Prop := ∃ e, latest? attempts key = some e ∧ e.fails = true

def Failing (attempts : List Attempt) (node : Nat) : Prop := ∃ key, key.node = node ∧ FailsLast attempts key

def Touched (attempts : List Attempt) (node : Nat) : Prop := ∃ e ∈ attempts, e.target.node = node

section
variable {one two : List Attempt} {key : Key} {node : Nat}

theorem latest_append : latest? (one ++ two) key = (latest? two key).or (latest? one key) := by
  unfold latest?
  rw [List.reverse_append,List.find?_append]

theorem latest_none : latest? two key = none ↔ ∀ e ∈ two, e.target ≠ key := by
  unfold latest?
  rw [List.find?_eq_none]
  simp

theorem latest_mem {e : Attempt} (found : latest? one key = some e) : e ∈ one ∧ e.target = key :=
  ⟨List.mem_reverse.mp (List.mem_of_find?_eq_some found),by simpa using List.find?_some found⟩

theorem failsLast_append : FailsLast (one ++ two) key ↔
    FailsLast two key ∨ FailsLast one key ∧ ∀ e ∈ two, e.target ≠ key := by
  unfold FailsLast
  rw [latest_append,← latest_none]
  cases latest? two key <;> simp

theorem failsLast_single {e : Attempt} : FailsLast [e] key ↔ e.fails = true ∧ e.target = key := by
  unfold FailsLast latest?
  by_cases same : e.target = key <;> simp [same]

theorem failsLast_distinct (distinct : (one.map Attempt.target).Nodup) :
    FailsLast one key ↔ ∃ e ∈ one, e.fails = true ∧ e.target = key := by
  constructor
  · rintro ⟨e,found,fails⟩
    exact ⟨e,(latest_mem found).1,fails,(latest_mem found).2⟩
  · rintro ⟨e,member,fails,rfl⟩
    induction one with
    | nil => cases member
    | cons first rest ih =>
      obtain ⟨new,later⟩ := List.nodup_cons.mp distinct
      have split : first :: rest = [first] ++ rest := rfl
      rw [split,failsLast_append]
      rcases List.mem_cons.mp member with rfl | present
      · refine .inr ⟨failsLast_single.mpr ⟨fails,rfl⟩,?_⟩
        intro other member same
        exact new (List.mem_map.mpr ⟨other,member,same⟩)
      · exact .inl (ih later present)

theorem failing_untouched (untouched : ¬Touched two node) : Failing (one ++ two) node ↔ Failing one node := by
  unfold Failing
  apply exists_congr
  intro key
  apply and_congr_right
  rintro rfl
  rw [failsLast_append]
  have apart : ∀ e ∈ two, e.target ≠ key := fun e member same => untouched ⟨e,member,by rw [same]⟩
  constructor
  · rintro (⟨e,found,_⟩ | ⟨fails,_⟩)
    · exact absurd found (by rw [latest_none.mpr apart]; simp)
    · exact fails
  · intro fails
    exact .inr ⟨fails,apart⟩

end

theorem Tree.write_frame {t t' : Tree} {key : Key} {value : Value} {deterministic : Bool}
    (written : t.write key value deterministic = .ok t') :
    t'.nodes.size = t.nodes.size ∧ ∀ i, (t'.node i).valid = (t.node i).valid := by
  unfold write at written
  split at written
  · cases written
  · split at written
    · cases written
      refine ⟨size_modify ..,?_⟩
      intro i
      rw [node_modify]
      split <;> rfl
    · cases written

theorem Assignment.execute_frame {environment : Environment} {t t' : Tree} {a : Assignment} {done : Executed}
    (executed : a.execute environment t = .ok (done,t')) :
    t'.nodes.size = t.nodes.size ∧ ∀ i, (t'.node i).valid = (t.node i).valid := by
  unfold execute at executed
  split at executed
  · cases executed
  · dsimp only at executed
    split at executed
    · cases executed
    · rename_i written
      cases executed
      exact Tree.write_frame written

structure Retried (r r' : Refreshing) (attempts : List Attempt) : Prop where
  size : r'.state.tree.nodes.size = r.state.tree.nodes.size
  valid : ∀ i, (r'.state.tree.node i).valid = (r.state.tree.node i).valid
  broken : r'.state.broken = r.state.broken
  failures : ∀ key, key ∈ r'.state.failures ↔
    FailsLast attempts key ∨ key ∈ r.state.failures ∧ ∀ e ∈ attempts, e.target ≠ key
  touched : ∀ i, i ∈ r'.touched ↔ i ∈ r.touched ∨ Touched attempts i

namespace Retried
variable {environment : Environment} {root : Option Nat} {r r' : Refreshing}

theorem empty (r : Refreshing) (kept : List Assignment) : Retried r { r with kept := kept } [] :=
  ⟨rfl,fun _ => rfl,rfl,by simp [FailsLast,latest?],by simp [Touched]⟩

theorem append {m : Refreshing} {one two : List Attempt} (left : Retried r m one) (right : Retried m r' two) :
    Retried r r' (one ++ two) := by
  refine ⟨right.size.trans left.size,fun i => (right.valid i).trans (left.valid i),right.broken.trans left.broken,?_,?_⟩
  · intro key
    rw [right.failures,left.failures,failsLast_append]
    simp only [List.mem_append,or_imp,forall_and]
    rw [or_and_right,and_assoc,or_assoc]
  · intro i
    rw [right.touched,left.touched,or_assoc]
    apply or_congr_right
    unfold Touched
    simp only [List.mem_append,or_and_right,exists_or]

theorem step (environment : Environment) (root : Option Nat) (r : Refreshing) (a : Assignment) :
    Retried r (r.step environment root a) (r.attempt? environment root a).toList := by
  unfold Refreshing.step Refreshing.attempt?
  dsimp only
  split
  · exact empty r _
  · -- a success takes the key off the failures, anything else puts it there
    have taken : ∀ (failures : List Key) (key : Key), key ∈ failures.filter (· ≠ a.target) ↔
        key ∈ failures ∧ a.target ≠ key := by
      intro failures key
      rw [List.mem_filter,decide_eq_true_iff]
      exact and_congr_right fun _ => ne_comm
    have added : ∀ (failures : List Key) (key : Key), key ∈ addNew failures a.target ↔
        a.target = key ∨ key ∈ failures ∧ a.target ≠ key := by
      intro failures key
      rw [mem_addNew]
      by_cases same : a.target = key
      · simp [same]
      · simp [same,Ne.symm same]
    have touched : ∀ (touched : List Nat) (e : Attempt) (i : Nat), e.assignment = a →
        (i ∈ addNew touched a.target.node ↔ i ∈ touched ∨ Touched [e] i) := by
      rintro touched e i rfl
      rw [mem_addNew]
      unfold Touched
      simp [Attempt.target,eq_comm]
    cases executed : a.execute environment r.state.tree with
    | error error =>
      refine ⟨rfl,fun _ => rfl,rfl,?_,fun i => touched r.touched _ i rfl⟩
      intro key
      dsimp only [Option.toList_some]
      rw [added,failsLast_single]
      simp [Attempt.fails,Attempt.target]
    | ok result =>
      obtain ⟨⟨deterministic,rejected⟩,t⟩ := result
      obtain ⟨size,valid⟩ := a.execute_frame executed
      cases rejected with
      | none =>
        refine ⟨size,valid,rfl,?_,fun i => touched r.touched _ i rfl⟩
        intro key
        dsimp only [Option.toList_some]
        rw [taken,failsLast_single]
        simp [Attempt.fails,Attempt.target]
      | some reason =>
        refine ⟨size,valid,rfl,?_,fun i => touched r.touched _ i rfl⟩
        intro key
        dsimp only [Option.toList_some]
        rw [added,failsLast_single]
        simp [Attempt.fails,Attempt.target]

theorem fold (environment : Environment) (root : Option Nat) (r : Refreshing) (assignments : List Assignment) :
    Retried r (assignments.foldl (Refreshing.step environment root) r)
      (Refreshing.history environment root r assignments) := by
  induction assignments generalizing r with
  | nil => exact empty r r.kept
  | cons a rest ih => exact (step environment root r a).append (ih _)

end Retried

section
variable (environment : Environment) (root : Option Nat) (s : Resolution)

theorem refresh_failures {attempts : List Attempt} (tracked : ∀ key, key ∈ s.failures ↔ FailsLast attempts key)
    (key : Key) :
    key ∈ (s.refresh environment root).2.failures ↔ FailsLast (attempts ++ s.refreshHistory environment root) key := by
  rw [failsLast_append,← tracked]
  exact (Retried.fold environment root ⟨{ s with issues := [] },[],[]⟩ s.retained).failures key

theorem refresh_broken : (s.refresh environment root).2.broken = s.broken :=
  (Retried.fold environment root ⟨{ s with issues := [] },[],[]⟩ s.retained).broken

theorem refresh_size : (s.refresh environment root).2.tree.nodes.size = s.tree.nodes.size :=
  (Tree.shape_setValids _ _ _).size.trans (Retried.fold environment root ⟨{ s with issues := [] },[],[]⟩ s.retained).size

theorem refresh_touched {i : Nat} (bound : i < s.tree.nodes.size) (touched : Touched (s.refreshHistory environment root) i) :
    ((s.refresh environment root).2.tree.node i).valid = false ↔
      (∃ key ∈ (s.refresh environment root).2.failures, key.node = i) ∨ i ∈ s.broken := by
  have retried := Retried.fold environment root ⟨{ s with issues := [] },[],[]⟩ s.retained
  have member := (retried.touched i).mpr (.inr touched)
  unfold refresh
  dsimp only
  generalize s.retained.foldl (Refreshing.step environment root) _ = done at *
  rw [Tree.valid_setValids,if_pos ⟨member,retried.size.symm ▸ bound⟩,← retried.broken]
  simp only [Bool.and_eq_false_iff,Bool.not_eq_eq_eq_not,Bool.not_false,failing_iff,List.contains_eq_mem,
    decide_eq_true_eq]

theorem refresh_untouched {i : Nat} (untouched : ¬Touched (s.refreshHistory environment root) i) :
    ((s.refresh environment root).2.tree.node i).valid = (s.tree.node i).valid := by
  have retried := Retried.fold environment root ⟨{ s with issues := [] },[],[]⟩ s.retained
  have apart : i ∉ (s.retained.foldl (Refreshing.step environment root) ⟨{ s with issues := [] },[],[]⟩).touched := by
    rw [retried.touched]
    rintro (impossible | touched)
    · cases impossible
    · exact untouched touched
  unfold refresh
  dsimp only
  rw [Tree.valid_setValids,if_neg fun both => apart both.1,retried.valid]

end
end DeferredAttributes
