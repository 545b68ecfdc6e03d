import DeferredAttributes.Proofs.Block.Declared
import DeferredAttributes.Proofs.Resolution.Reported

-- Loading a block tree solves it: no attribute saw a value that is not there at the end, and
-- none was given up that has a value over the tree at the end.
namespace DeferredAttributes
open Resolution

def Block.attempts (schema : Schema) (environment : Environment) (root : Block) : List Attempt :=
  history environment (.start (Declared.ofBlock schema root).tree) (Declared.ofBlock schema root).assignments

theorem Block.load_open (schema : Schema) (environment : Environment) (root : Block) :
    Open environment (.start (Declared.ofBlock schema root).tree) (Declared.ofBlock schema root).assignments :=
  start_open environment (Declared.ofBlock_ready schema root) (Declared.ofBlock_distinct schema root)

theorem Block.load_runs (schema : Schema) (environment : Environment) (root : Block) :
    ∃ last, Runs environment (.start (Declared.ofBlock schema root).tree) (Declared.ofBlock schema root).assignments
        (root.attempts schema environment) last ∧
      (root.load schema environment).1 = (Declared.ofBlock schema root).issues ++ last.issues ∧
      (root.load schema environment).2.tree = last.tree ∧
      (root.load schema environment).2.pending = last.pending ∧
      (root.load schema environment).2.failures = last.failures ∧
      ∀ i, i ∈ (root.load schema environment).2.broken ↔
        i < last.tree.nodes.size ∧ (last.tree.node i).valid = false ∧ ¬∃ key ∈ last.failures, key.node = i := by
  obtain ⟨last,run,issues,tree,pending,_,failures,broken⟩ := loaded_runs environment
    (Declared.ofBlock_ready schema root) (Declared.ofBlock_distinct schema root)
  refine ⟨last,run,?_,tree,pending,failures,broken⟩
  rw [← issues]
  rfl

theorem Block.attempt_typed {schema : Schema} {environment : Environment} {root : Block} {last : Resolution} {a : Assignment}
    (run : Runs environment (.start (Declared.ofBlock schema root).tree) (Declared.ofBlock schema root).assignments
      (root.attempts schema environment) last)
    (member : a ∈ (Declared.ofBlock schema root).assignments) :
    (last.tree.slot? a.target).map Entry.type = some a.resolver.type :=
  ((run.grows.shape.nodes a.target.node).types a.target.name).trans (Declared.ofBlock_ready schema root a member).typed

def Block.tried (schema : Schema) (environment : Environment) (root : Block) : Resolution :=
  (Declared.ofBlock schema root).assignments.foldl (Resolution.load environment)
    (.start (Declared.ofBlock schema root).tree)

theorem Block.load_idle {schema : Schema} {environment : Environment} {root : Block}
    (idle : (root.tried schema environment).pending = []) :
    let s := root.tried schema environment
    (root.load schema environment).2 = { s with
      broken := ((List.range s.tree.nodes.size).filter fun i => !(s.tree.node i).valid && !s.failing i).foldl addNew
        s.broken
      issues := [] } := by
  intro s
  change (s.finish environment).2 = _
  rw [finish_idle environment idle]

theorem Block.load_shape (schema : Schema) (environment : Environment) (root : Block) :
    (Declared.ofBlock schema root).tree.SameShape (root.load schema environment).2.tree :=
  loaded_shape environment (Declared.ofBlock_ready schema root) (Declared.ofBlock_distinct schema root)

theorem Block.load_declared (schema : Schema) (environment : Environment) (root : Block) (key : Key) :
    ((root.load schema environment).2.tree.slot? key).isSome =
      ((root.preorder[key.node]?).bind fun b => b.attributes.lookup key.name).isSome := by
  rw [(root.load_shape schema environment).slot_isSome,Declared.ofBlock_slot]
  cases root.preorder[key.node]? with
  | none => rfl
  | some b => exact Option.isSome_map

theorem Assignment.answer_resolved {environment : Environment} {t : Tree} {a : Assignment} {value : Value}
    {deterministic : Bool} (answered : a.answer environment t = .ok (value,deterministic)) :
    ∃ read, a.resolver.resolve a.raw ⟨t,a.target.node,environment⟩ false = (.ok value,read) ∧
      (deterministic = false ↔ read = true ∨ a.volatile = true) := by
  unfold answer at answered
  split at answered
  · cases answered
  · rename_i found read resolved
    split at answered
    · cases answered
    · cases answered
      refine ⟨read,resolved,?_⟩
      cases a.volatile <;> cases read <;> simp

theorem Assignment.answer_accepted {environment : Environment} {t : Tree} {a : Assignment} {value : Value}
    (resolved : (a.resolver.resolve a.raw ⟨t,a.target.node,environment⟩ false).1 = .ok value)
    (accepted : t.refusal? a.target value = none) : ∃ deterministic, a.answer environment t = .ok (value,deterministic) := by
  unfold answer
  split
  · rename_i failed
    rw [failed] at resolved
    cases resolved
  · rename_i found read same
    rw [same] at resolved
    cases resolved
    rw [accepted]
    exact ⟨_,rfl⟩

theorem Assignment.answer_unresolved {environment : Environment} {t : Tree} {a : Assignment} {error : ResolveError}
    (failed : (a.resolver.resolve a.raw ⟨t,a.target.node,environment⟩ false).1 = .error error) :
    ∃ read, a.resolver.resolve a.raw ⟨t,a.target.node,environment⟩ false = (.error error,read) :=
  ⟨_,Prod.ext failed rfl⟩

-- A key with a value has what its text comes to over the tree at the end. One without a value has
-- a text that comes to none.
theorem Block.load_solution (schema : Schema) (environment : Environment) (root : Block) :
    let t := (root.load schema environment).2.tree
    (∀ key, (t.slot? key).isSome = ((root.preorder[key.node]?).bind fun b => b.attributes.lookup key.name).isSome) ∧
    ∀ key entry, t.slot? key = some entry →
      ∃ b raw, root.preorder[key.node]? = some b ∧ b.attributes.lookup key.name = some raw ∧
        let a := schema.assignment b.kind key raw
        (∀ value, entry.value = some value →
          ∃ read, a.resolver.resolve raw ⟨t,key.node,environment⟩ false = (.ok value,read) ∧
            (entry.deterministic = false ↔ read = true ∨ a.volatile = true)) ∧
        (entry.value = none → a.resolver.check raw = .ok () →
          ∃ error read, a.resolver.resolve raw ⟨t,key.node,environment⟩ false = (.error error,read)) := by
  intro t
  refine ⟨root.load_declared schema environment,?_⟩
  intro key entry found
  have declared := root.load_declared schema environment key
  change (t.slot? key).isSome = _ at declared
  rw [found] at declared
  obtain ⟨raw,written⟩ := Option.isSome_iff_exists.mp declared.symm
  obtain ⟨b,placed,written⟩ := Option.bind_eq_some_iff.mp written
  have member : schema.assignment b.kind key raw ∈ (Declared.ofBlock schema root).assignments :=
    Declared.mem_ofBlock.mpr ⟨b,placed,written,rfl⟩
  obtain ⟨circle,later,ending,stands⟩ := loaded_stands environment
    (Declared.ofBlock_ready schema root) (Declared.ofBlock_distinct schema root) member
  change Stands environment t circle later (schema.assignment b.kind key raw) ending at stands
  refine ⟨b,raw,placed,written,?_,?_⟩
  · intro value has
    exact Assignment.answer_resolved (stands.solved (Tree.stored_solved found has))
  · intro empty checked
    obtain ⟨error,answered⟩ := stands.unsolved checked (Tree.stored_blank found empty)
    exact ⟨error,Assignment.answer_unresolved answered⟩

def supply : Block := ⟨"supply","main",.blank,[("base","3"),("double","@base * 2")],[]⟩

theorem load_solution_supply :
    ∃ entry value b raw read, (supply.load [] .empty).2.tree.slot? ⟨0,"double"⟩ = some entry ∧
      entry.value = some value ∧ supply.preorder[0]? = some b ∧ b.attributes.lookup "double" = some raw ∧
      (Schema.assignment [] b.kind ⟨0,"double"⟩ raw).resolver.resolve raw
        ⟨(supply.load [] .empty).2.tree,0,.empty⟩ false = (.ok value,read) := by
  have idle : (supply.tried [] .empty).pending = [] := List.length_eq_zero_iff.mp (by decide +kernel)
  have solved : ((supply.load [] .empty).2.tree.slot? ⟨0,"double"⟩).any (fun entry => entry.value.isSome) = true := by
    rw [Block.load_idle idle]
    decide +kernel
  obtain ⟨entry,found,some⟩ := (Option.any_eq_true _ _).mp solved
  obtain ⟨value,has⟩ := Option.isSome_iff_exists.mp some
  obtain ⟨b,raw,placed,written,values,_⟩ := (Block.load_solution [] .empty supply).2 ⟨0,"double"⟩ entry found
  obtain ⟨read,resolved,_⟩ := values value has
  exact ⟨entry,value,b,raw,read,found,has,placed,written,resolved⟩

end DeferredAttributes
