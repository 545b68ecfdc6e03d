import DeferredAttributes.Proofs.Block.Accounting
import DeferredAttributes.Proofs.Resolution.Refreshing

-- A node is invalid while one of its attributes fails. One that the load itself broke stays
-- invalid, but only where none of its attributes failed in the load.
namespace DeferredAttributes
open Resolution

def Resolution.refreshed : Resolution → List (Environment × Option Nat) → Resolution
  | s, [] => s
  | s, (environment,root) :: rest => (s.refresh environment root).2.refreshed rest

def Resolution.refreshedHistory : Resolution → List (Environment × Option Nat) → List Attempt
  | _, [] => []
  | s, (environment,root) :: rest =>
    s.refreshHistory environment root ++ (s.refresh environment root).2.refreshedHistory rest

structure Watched (i : Nat) (repeats : Prop) (before after : List Attempt) (s : Resolution) : Prop where
  bound : i < s.tree.nodes.size
  failures : ∀ key, key ∈ s.failures ↔ FailsLast (before ++ after) key
  noted : i ∈ s.broken ↔ repeats ∧ ¬Failing before i
  valid : (s.tree.node i).valid = false ↔
    Failing (before ++ after) i ∨ repeats ∧ ¬(Failing before i ∧ Touched after i)

section
variable {i : Nat} {repeats : Prop} {before after : List Attempt} {s : Resolution}

theorem touched_append {one two : List Attempt} : Touched (one ++ two) i ↔ Touched one i ∨ Touched two i := by
  unfold Touched
  simp only [List.mem_append,or_and_right,exists_or]

theorem Watched.refresh (watched : Watched i repeats before after s) (environment : Environment) (root : Option Nat) :
    Watched i repeats before (after ++ s.refreshHistory environment root) (s.refresh environment root).2 := by
  have failures : ∀ key, key ∈ (s.refresh environment root).2.failures ↔
      FailsLast (before ++ (after ++ s.refreshHistory environment root)) key := by
    intro key
    rw [← List.append_assoc]
    exact refresh_failures environment root s watched.failures key
  refine ⟨?_,failures,?_,?_⟩
  · rw [refresh_size]
    exact watched.bound
  · rw [refresh_broken]
    exact watched.noted
  · by_cases touched : Touched (s.refreshHistory environment root) i
    · have failing : (∃ key ∈ (s.refresh environment root).2.failures, key.node = i) ↔
          Failing (before ++ (after ++ s.refreshHistory environment root)) i := by
        unfold Failing
        simp only [failures,and_comm]
      rw [refresh_touched environment root s watched.bound touched,failing,watched.noted,touched_append]
      simp only [touched,or_true,and_true]
    · rw [refresh_untouched environment root s touched,watched.valid,← List.append_assoc,
        failing_untouched touched,touched_append]
      simp only [touched,or_false]

theorem Watched.refreshed (watched : Watched i repeats before after s) (refreshes : List (Environment × Option Nat)) :
    Watched i repeats before (after ++ s.refreshedHistory refreshes) (s.refreshed refreshes) := by
  induction refreshes generalizing after s with
  | nil =>
    unfold refreshedHistory refreshed
    rw [List.append_nil]
    exact watched
  | cons refresh rest ih =>
    obtain ⟨environment,root⟩ := refresh
    unfold refreshedHistory refreshed
    rw [← List.append_assoc]
    exact ih (watched.refresh environment root)

end

section
variable {schema : Schema} {environment : Environment} {root : Block} {i : Nat} {b : Block}

theorem Block.attempts_failing (i : Nat) : Failing (root.attempts schema environment) i ↔
    ∃ e ∈ root.attempts schema environment, e.fails = true ∧ e.target.node = i := by
  obtain ⟨last,run,_⟩ := root.load_runs schema environment
  have distinct := (root.load_open schema environment).nodup run
  unfold Failing
  simp only [failsLast_distinct distinct]
  constructor
  · rintro ⟨key,rfl,e,member,fails,rfl⟩
    exact ⟨e,member,fails,rfl⟩
  · rintro ⟨e,member,fails,rfl⟩
    exact ⟨e.target,rfl,e,member,fails,rfl⟩

theorem Block.load_watched (placed : root.preorder[i]? = some b) :
    Watched i b.Repeats (root.attempts schema environment) [] (root.load schema environment).2 := by
  obtain ⟨last,run,_,tree,_,failures,broken⟩ := root.load_runs schema environment
  have ready := root.load_open schema environment
  have distinct := ready.nodup run
  have bound : i < last.tree.nodes.size := by
    rw [run.grows.shape.size]
    change i < (Declared.ofBlock schema root).tree.nodes.size
    rw [Declared.ofBlock_size]
    exact (List.getElem?_eq_some_iff.mp placed).1
  have failed : ∀ key, key ∈ last.failures ↔ FailsLast (root.attempts schema environment) key := by
    intro key
    rw [(run.recorded ready).failures,failsLast_distinct distinct]
    exact or_iff_right List.not_mem_nil
  have valid := Block.load_valid run placed
  rw [← Block.attempts_failing] at valid
  refine ⟨tree ▸ bound,?_,?_,?_⟩
  · intro key
    rw [failures,failed,List.append_nil]
  · have failing : (∃ key ∈ last.failures, key.node = i) ↔ Failing (root.attempts schema environment) i := by
      unfold Failing
      simp only [failed,and_comm]
    rw [broken,failing,valid]
    constructor
    · rintro ⟨_,fails | repeats,fine⟩
      · exact absurd fails fine
      · exact ⟨repeats,fine⟩
    · rintro ⟨repeats,fine⟩
      exact ⟨bound,.inr repeats,fine⟩
  · rw [tree,valid,List.append_nil]
    simp [Touched]

end

-- The flag tells of what a block repeats, unless a refresh has come to the node that it needed
-- for an attribute that failed in the load.
theorem Block.refreshed_valid (schema : Schema) (environment : Environment) (root : Block)
    (refreshes : List (Environment × Option Nat)) {i : Nat} {b : Block} (placed : root.preorder[i]? = some b) :
    let before := root.attempts schema environment
    let after := (root.load schema environment).2.refreshedHistory refreshes
    let invalid := (((root.load schema environment).2.refreshed refreshes).tree.node i).valid = false
    (invalid ↔ Failing (before ++ after) i ∨ b.Repeats ∧ ¬(Failing before i ∧ Touched after i)) ∧
    ((invalid ↔ b.Repeats ∨ Failing (before ++ after) i) ↔
      ¬(b.Repeats ∧ Failing before i ∧ Touched after i ∧ ¬Failing (before ++ after) i)) := by
  intro before after invalid
  have valid : invalid ↔ Failing (before ++ after) i ∨ b.Repeats ∧ ¬(Failing before i ∧ Touched after i) :=
    ((Block.load_watched placed).refreshed refreshes).valid
  refine ⟨valid,?_⟩
  rw [valid]
  constructor
  · rintro rule ⟨repeats,failed,touched,fine⟩
    rcases rule.mpr (.inl repeats) with fails | ⟨_,untouched⟩
    · exact fine fails
    · exact untouched ⟨failed,touched⟩
  · intro spared
    constructor
    · rintro (fails | ⟨repeats,_⟩)
      · exact .inr fails
      · exact .inl repeats
    · rintro (repeats | fails)
      · by_cases fails : Failing (before ++ after) i
        · exact .inl fails
        · exact .inr ⟨repeats,fun ⟨failed,touched⟩ => spared ⟨repeats,failed,touched,fails⟩⟩
      · exact .inl fails

-- A gauge that is written twice, and whose first text fails its condition when the fuel is low.
def gauge : Block := ⟨"gauge","main",⟨none,"gauge \"main\""⟩,[("level","$fuel"),("level","2")],[]⟩

def gaugeSchema : Schema := [("gauge",[("level",⟨.decimal,false,some "value > 0"⟩)])]

def fuel (x : Float) : Environment := .ofTable [("fuel",x)]

theorem refreshed_valid_gauge :
    gauge.preorder[0]? = some gauge ∧
      ((((gauge.load gaugeSchema (fuel (-1))).2.refreshed [(fuel 1,none)]).tree.node 0).valid = false ↔
        Failing (gauge.attempts gaugeSchema (fuel (-1)) ++
          (gauge.load gaugeSchema (fuel (-1))).2.refreshedHistory [(fuel 1,none)]) 0 ∨
        gauge.Repeats ∧ ¬(Failing (gauge.attempts gaugeSchema (fuel (-1))) 0 ∧
          Touched ((gauge.load gaugeSchema (fuel (-1))).2.refreshedHistory [(fuel 1,none)]) 0)) :=
  ⟨rfl,(Block.refreshed_valid gaugeSchema (fuel (-1)) gauge [(fuel 1,none)] rfl).1⟩

-- Once there is fuel the gauge is valid, although it is still written twice.
theorem gauge_recovers :
    gauge.Repeats ∧
      (((gauge.load gaugeSchema (fuel (-1))).2.refreshed [(fuel 1,none)]).tree.node 0).valid = true := by
  have idle : (gauge.tried gaugeSchema (fuel (-1))).pending = [] :=
    List.length_eq_zero_iff.mp (by decide +kernel)
  refine ⟨.inl (by decide),?_⟩
  rw [Block.load_idle idle]
  decide +kernel

end DeferredAttributes
