import DeferredAttributes.Proofs.Block.Validity
import DeferredAttributes.Proofs.Resolution.Renewal

-- Refreshing a loaded block tree and loading it anew come to the same.
namespace DeferredAttributes
open Resolution

section
variable {i : Nat} {repeats : Prop} {before after : List Attempt} {s : Resolution}

theorem Watched.failing (watched : Watched i repeats before after s) (once : ¬repeats) :
    (s.tree.node i).valid = false ↔ ∃ key ∈ s.failures, key.node = i := by
  rw [watched.valid,or_iff_left fun broken => once broken.1]
  unfold Failing
  simp only [watched.failures,and_comm]

end

theorem Block.load_unloaded {schema : Schema} {environment : Environment} {root : Block} {key : Key}
    (other : key ∉ (Declared.ofBlock schema root).assignments.map Assignment.target) :
    (root.load schema environment).2.tree.stored? key = none := by
  obtain ⟨last,run,_,tree,_⟩ := root.load_runs schema environment
  rw [tree,run.untouched other]
  change (Declared.ofBlock schema root).tree.stored? key = none
  rw [Tree.stored_slot,Declared.ofBlock_slot]
  cases root.preorder[key.node]? with
  | none => rfl
  | some b => cases written : b.attributes.lookup key.name <;> simp [written,Entry.blank]

-- It is all one whether a block tree is loaded under the second environment, or under the first
-- and then refreshed, as long as both leave the same keys with a value.
theorem Block.refresh_renews (schema : Schema) (environment environment' : Environment) (root : Block)
    (once : ∀ b ∈ root.preorder, ¬b.Repeats)
    (same : ∀ key, ((root.load schema environment).2.tree.stored? key).isSome =
      ((root.load schema environment').2.tree.stored? key).isSome) :
    let refreshed := ((root.load schema environment).2.refresh environment' none).2
    let anew := (root.load schema environment').2
    (∀ key, (refreshed.tree.slot? key).map (fun entry => (entry.value,entry.deterministic)) =
      (anew.tree.slot? key).map fun entry => (entry.value,entry.deterministic)) ∧
    ∀ i, (refreshed.tree.node i).valid = (anew.tree.node i).valid := by
  intro refreshed anew
  obtain ⟨slots,failures⟩ := loaded_refreshed (root.load_open schema environment) (root.load_open schema environment') same
  change ∀ key, key ∈ refreshed.failures ↔ key ∈ anew.failures at failures
  refine ⟨slots,?_⟩
  intro i
  cases placed : root.preorder[i]? with
  | some b =>
    have apart := once b (List.mem_of_getElem? placed)
    have watched : Watched i b.Repeats (root.attempts schema environment) [] (root.load schema environment).2 :=
      Block.load_watched placed
    have watched' : Watched i b.Repeats (root.attempts schema environment') [] anew := Block.load_watched placed
    have fails : (refreshed.tree.node i).valid = false ↔ (anew.tree.node i).valid = false := by
      rw [(watched.refresh environment' none).failing apart,watched'.failing apart]
      exact exists_congr fun key => and_congr_left fun _ => failures key
    cases one : (refreshed.tree.node i).valid <;> cases two : (anew.tree.node i).valid <;> simp_all
  | none =>
    have beyond := List.getElem?_eq_none_iff.mp placed
    rw [← Declared.ofBlock_size schema root] at beyond
    rw [Tree.node_outside,Tree.node_outside]
    · rwa [(root.load_shape schema environment').size]
    · rwa [refresh_size,(root.load_shape schema environment).size]

def tank : Block :=
  ⟨"tank","main",.blank,[("level","$fuel * 2"),("half","level / 2"),("base","3")],
    [⟨"gauge","inner",.blank,[("reading","half + base")],[]⟩]⟩

theorem refresh_renews_tank :
    (∀ b ∈ tank.preorder, ¬b.Repeats) ∧
    (∀ key, ((tank.load [] (fuel 1)).2.tree.stored? key).isSome = ((tank.load [] (fuel 2)).2.tree.stored? key).isSome) ∧
    (∀ key, ((((tank.load [] (fuel 1)).2.refresh (fuel 2) none).2.tree.slot? key).map
        fun entry => (entry.value,entry.deterministic)) =
      ((tank.load [] (fuel 2)).2.tree.slot? key).map fun entry => (entry.value,entry.deterministic)) := by
  have once : ∀ b ∈ tank.preorder, ¬b.Repeats := by
    unfold Block.Repeats
    decide
  have idle : ∀ x ∈ [1,2], (tank.tried [] (fuel x)).pending = [] := by
    intro x member
    rcases List.mem_cons.mp member with rfl | member
    · exact List.length_eq_zero_iff.mp (by decide +kernel)
    · rw [List.mem_singleton.mp member]
      exact List.length_eq_zero_iff.mp (by decide +kernel)
  have loaded : ∀ key ∈ (Declared.ofBlock [] tank).assignments.map Assignment.target,
      ((tank.load [] (fuel 1)).2.tree.stored? key).isSome = ((tank.load [] (fuel 2)).2.tree.stored? key).isSome := by
    rw [Block.load_idle (idle 1 (by simp)),Block.load_idle (idle 2 (by simp))]
    decide +kernel
  have same : ∀ key, ((tank.load [] (fuel 1)).2.tree.stored? key).isSome =
      ((tank.load [] (fuel 2)).2.tree.stored? key).isSome := by
    intro key
    by_cases own : key ∈ (Declared.ofBlock [] tank).assignments.map Assignment.target
    · exact loaded key own
    · rw [Block.load_unloaded own,Block.load_unloaded own]
  exact ⟨once,same,(Block.refresh_renews [] (fuel 1) (fuel 2) tank once same).1⟩

end DeferredAttributes
