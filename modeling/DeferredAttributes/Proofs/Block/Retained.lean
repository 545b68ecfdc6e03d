import DeferredAttributes.Proofs.Block.Accounting
import DeferredAttributes.Proofs.Resolution.Retained

-- Which keys of a loaded block tree a refresh may change, and the list of attributes that it
-- goes through for them.
namespace DeferredAttributes
open Resolution Expression

theorem Schema.assignment_flag {schema : Schema} {kind : String} {key : Key} {raw : String} {environment : Environment}
    {t : Tree} {value : Value} {deterministic : Bool}
    (checked : (schema.assignment kind key raw).resolver.check raw = .ok ())
    (answered : (schema.assignment kind key raw).answer environment t = .ok (value,deterministic)) :
    deterministic = false ↔ (schema.spec kind key.name).volatile = true ∨
      (schema.spec kind key.name).type.isNumeric = true ∧
        ∃ name, .identifier name ∈ tokens raw ∧ name ≠ "true" ∧ name ≠ "false" ∧ t.Unsteady key.node name := by
  have names : ∀ name, name ∈ (schema.assignment kind key raw).resolver.names raw ↔
      (schema.spec kind key.name).type.isNumeric = true ∧
        .identifier name ∈ tokens raw ∧ name ≠ "true" ∧ name ≠ "false" := by
    intro name
    change name ∈ (Resolver.ofType (schema.spec kind key.name).type).names raw ↔ _
    unfold Resolver.ofType
    cases (schema.spec kind key.name).type.isNumeric with
    | false => simp [Resolver.names]
    | true =>
      rw [if_pos rfl,Resolver.names,mem_asked]
      simp
  rw [Assignment.answer_flag (Resolver.builtin_ofType _) checked answered]
  apply or_congr_right
  constructor
  · intro unsteady
    obtain ⟨name,member,may⟩ := unsteady
    obtain ⟨numeric,token,plain⟩ := (names name).mp member
    exact ⟨numeric,name,token,plain.1,plain.2,may⟩
  · intro unsteady
    obtain ⟨numeric,name,token,one,two,may⟩ := unsteady
    exact ⟨name,(names name).mpr ⟨numeric,token,one,two⟩,may⟩

namespace Block

theorem load_keeps (schema : Schema) (environment : Environment) (root : Block) :
    ∃ last, Runs environment (.start (Declared.ofBlock schema root).tree) (Declared.ofBlock schema root).assignments
        (root.attempts schema environment) last ∧
      (root.load schema environment).2.tree = last.tree ∧
      (root.load schema environment).2.retained = (root.attempts schema environment).filterMap Attempt.retained? := by
  have ready := root.load_open schema environment
  obtain ⟨last,run,_,tree,_,retained,_⟩ := ready.loaded environment
  exact ⟨last,run,tree,retained.trans (run.recorded ready).retained⟩

-- Listed, each once, are the volatile attributes and the numeric ones that name a variable or a
-- key that may change, and none of them before an attribute that it reads.
theorem load_retains (schema : Schema) (environment : Environment) (root : Block) :
    let s := (root.load schema environment).2
    (∀ key value deterministic, s.tree.stored? key = some (value,deterministic) →
      ∃ b raw, root.preorder[key.node]? = some b ∧ b.attributes.lookup key.name = some raw ∧
        (deterministic = false ↔ (schema.spec b.kind key.name).volatile = true ∨
          (schema.spec b.kind key.name).type.isNumeric = true ∧
            ∃ name, .identifier name ∈ tokens raw ∧ name ≠ "true" ∧ name ≠ "false" ∧
              s.tree.Unsteady key.node name)) ∧
    (s.retained.map Assignment.target).Nodup ∧
    (∀ key, key ∈ s.retained.map Assignment.target ↔ ∃ value, s.tree.stored? key = some (value,false)) ∧
    (∀ a ∈ s.retained, ∃ b, root.preorder[a.target.node]? = some b ∧
      b.attributes.lookup a.target.name = some a.raw ∧ a = schema.assignment b.kind a.target a.raw) ∧
    s.retained.Pairwise (fun earlier later => later.target ∉ earlier.reads s.tree) ∧
    ∀ a ∈ s.retained, a.target ∉ a.reads s.tree := by
  intro s
  have ready := root.load_open schema environment
  obtain ⟨last,run,tree,retained⟩ := root.load_keeps schema environment
  have attempt : ∀ key content, last.tree.stored? key = some content →
      ∃ e ∈ root.attempts schema environment, e.target = key := by
    intro key content stored
    obtain ⟨entry,found,_⟩ := Option.bind_eq_some_iff.mp stored
    exact (attempt_slot run key).mp (Option.isSome_iff_exists.mpr ⟨entry,found⟩)
  rw [show s.tree = last.tree from tree,show s.retained = _ from retained]
  obtain ⟨ordered,own⟩ := run.unread ready
  refine ⟨?_,?_,?_,?_,ordered,own⟩
  · intro key value deterministic stored
    obtain ⟨e,member,rfl⟩ := attempt key _ stored
    obtain ⟨later,_,upheld⟩ := (run.truthful ready).mem member
    obtain ⟨b,placed,written,equal⟩ := Declared.mem_ofBlock.mp
      (run.once.mem_iff.mp (List.mem_map.mpr ⟨e,member,rfl⟩))
    have checked := upheld.checked stored
    have answered := upheld.solved stored
    rw [equal] at checked answered
    exact ⟨b,e.assignment.raw,placed,written,Schema.assignment_flag checked answered⟩
  · have targets : ((root.attempts schema environment).map Attempt.assignment).map Assignment.target =
        (root.attempts schema environment).map Attempt.target := List.map_map
    have distinct := ready.nodup run
    rw [← targets] at distinct
    exact distinct.sublist ((retainedOf_sublist _).map Assignment.target)
  · intro key
    rw [List.mem_map]
    constructor
    · intro listed
      obtain ⟨a,member,rfl⟩ := listed
      exact ((run.mem_retained ready).mp member).2
    · intro varies
      obtain ⟨value,stored⟩ := varies
      obtain ⟨e,member,rfl⟩ := attempt key _ stored
      exact ⟨e.assignment,(run.mem_retained ready).mpr ⟨List.mem_map.mpr ⟨e,member,rfl⟩,value,stored⟩,rfl⟩
  · intro a member
    exact Declared.mem_ofBlock.mp (run.once.mem_iff.mp ((run.mem_retained ready).mp member).1)

end Block

def injector : Block := ⟨"injector","main",.blank,[("flow","$fuel"),("double","@flow * 2"),("base","3")],[]⟩

theorem load_retains_injector :
    let t := (injector.load [] (.ofTable [("fuel",2)])).2.tree
    ∃ value b raw, t.stored? ⟨0,"double"⟩ = some (value,false) ∧
      injector.preorder[0]? = some b ∧ b.attributes.lookup "double" = some raw ∧
      ((Schema.spec [] b.kind "double").volatile = true ∨ (Schema.spec [] b.kind "double").type.isNumeric = true ∧
        ∃ name, .identifier name ∈ tokens raw ∧ name ≠ "true" ∧ name ≠ "false" ∧ t.Unsteady 0 name) := by
  intro t
  have idle : (injector.tried [] (.ofTable [("fuel",2)])).pending = [] := List.length_eq_zero_iff.mp (by decide +kernel)
  have varies : (t.stored? ⟨0,"double"⟩).any (fun content => !content.2) = true := by
    unfold t
    rw [Block.load_idle idle]
    decide +kernel
  obtain ⟨⟨value,deterministic⟩,stored,down⟩ := (Option.any_eq_true _ _).mp varies
  cases (Bool.not_eq_true' _).mp down
  obtain ⟨b,raw,placed,written,flag⟩ := (Block.load_retains [] (.ofTable [("fuel",2)]) injector).1 _ _ _ stored
  exact ⟨value,b,raw,stored,placed,written,flag.mp rfl⟩

end DeferredAttributes
