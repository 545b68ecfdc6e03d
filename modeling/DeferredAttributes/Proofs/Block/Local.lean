import Mathlib.Logic.Relation
import DeferredAttributes.Proofs.Block.Accounting
import DeferredAttributes.Proofs.Block.Rewriting
import DeferredAttributes.Proofs.Resolution.Local

-- Failures stay local. Another text for one attribute, well formed or not, changes nothing for
-- the attributes that do not refer to it, be it directly or through others.
namespace DeferredAttributes
open Resolution Expression

def Tree.leads? (t : Tree) (node : Nat) : Token → Option Key
  | .identifier name => (t.reference node name).key?
  | _ => none

def Block.references (schema : Schema) (root : Block) (key : Key) : List Key :=
  ((root.text? key).toList.flatMap tokens).filterMap ((Declared.ofBlock schema root).tree.leads? key.node)

def Block.Refers (schema : Schema) (root : Block) (key other : Key) : Prop := other ∈ root.references schema key

theorem Block.reads_refers {schema : Schema} {root : Block} {a : Assignment}
    (member : a ∈ (Declared.ofBlock schema root).assignments) {key : Key}
    (read : key ∈ a.reads (Declared.ofBlock schema root).tree) : root.Refers schema a.target key := by
  obtain ⟨name,named,leads⟩ := Tree.mem_keysRead.mp read
  have token : .identifier name ∈ tokens a.raw := (mem_asked.mp (Resolver.names_asked named)).1
  apply List.mem_filterMap.mpr
  refine ⟨.identifier name,?_,by rw [Tree.leads?,leads]; rfl⟩
  rw [(Declared.mem_ofBlock_text.mp member).1]
  simpa using token

namespace Block

def attempt? (schema : Schema) (environment : Environment) (root : Block) (key : Key) : Option Attempt :=
  (root.attempts schema environment).find? fun e => e.target = key

def failure? (schema : Schema) (environment : Environment) (root : Block) (key : Key) : Option Issue :=
  (root.attempt? schema environment key).bind (Attempt.issue? (root.load schema environment).2.tree)

def line? (schema : Schema) (environment : Environment) (root : Block) (key : Key) : Option (String × List String) :=
  (root.attempt? schema environment key).bind (Attempt.line? environment (root.load schema environment).2.tree)

-- The report of a load holds these issues and these lines, those of every attribute once, and
-- no others.
def Tells (schema : Schema) (environment : Environment) (root : Block) : Prop :=
  ∃ order : List Key, order.Perm ((Declared.ofBlock schema root).assignments.map Assignment.target) ∧
    (root.load schema environment).1.filter Issue.isFailed = order.filterMap (root.failure? schema environment) ∧
    (root.load schema environment).1.filterMap Issue.circle? =
      let lines := order.filterMap (root.line? schema environment)
      if lines.isEmpty then [] else [lines]

theorem attempt_target {schema : Schema} {environment : Environment} {root : Block} {key : Key} {e : Attempt}
    (found : root.attempt? schema environment key = some e) : e ∈ root.attempts schema environment ∧ e.target = key :=
  ⟨List.mem_of_find?_eq_some found,by simpa using List.find?_some found⟩

theorem attempt_mem {schema : Schema} {environment : Environment} {root : Block} {e : Attempt}
    (member : e ∈ root.attempts schema environment) : root.attempt? schema environment e.target = some e := by
  obtain ⟨last,run,_⟩ := root.load_runs schema environment
  cases found : root.attempt? schema environment e.target with
  | none =>
    unfold attempt? at found
    rw [List.find?_eq_none] at found
    exact absurd (decide_eq_true rfl) (found e member)
  | some other =>
    obtain ⟨present,same⟩ := attempt_target found
    rw [(root.load_open schema environment).only run present member same]

theorem filterMap_attempt {α : Type} (schema : Schema) (environment : Environment) (root : Block)
    (f : Attempt → Option α) :
    ((root.attempts schema environment).map Attempt.target).filterMap
        (fun key => (root.attempt? schema environment key).bind f) =
      (root.attempts schema environment).filterMap f := by
  rw [List.filterMap_map]
  apply List.filterMap_congr
  intro e member
  simp only [Function.comp_apply,attempt_mem member,Option.bind_some]

theorem load_tells (schema : Schema) (environment : Environment) (root : Block) : root.Tells schema environment := by
  obtain ⟨last,run,reported,tree,_⟩ := root.load_runs schema environment
  have ready := root.load_open schema environment
  have silent := Declared.ofBlock_silent schema root
  refine ⟨(root.attempts schema environment).map Attempt.target,run.targets,?_,?_⟩
  · have own : (Declared.ofBlock schema root).issues.filter Issue.isFailed = [] := by
      rw [List.filter_eq_nil_iff]
      intro issue member
      rw [(silent issue member).1]
      exact Bool.false_ne_true
    unfold failure?
    rw [reported,List.filter_append,own,run.issues_failed ready,filterMap_attempt,tree]
    rfl
  · have own : (Declared.ofBlock schema root).issues.filterMap Issue.circle? = [] :=
      List.filterMap_eq_nil_iff.mpr fun issue member => (silent issue member).2
    unfold line?
    rw [reported,List.filterMap_append,own,run.circles ready,filterMap_attempt,tree,Attempt.lines_given]
    cases abandonedOf (root.attempts schema environment) <;> rfl

-- Two block trees that declare the same keys and give some of them the same attributes, which
-- read nothing but them.
structure Alike (schema : Schema) (keys : Set Key) (root after : Block) : Prop where
  tree : (Declared.ofBlock schema after).tree = (Declared.ofBlock schema root).tree
  enclosed : Enclosed keys (Declared.ofBlock schema root).tree (Declared.ofBlock schema root).assignments
  same : ∀ a : Assignment, a.target ∈ keys →
    (a ∈ (Declared.ofBlock schema root).assignments ↔ a ∈ (Declared.ofBlock schema after).assignments)

namespace Alike
variable {schema : Schema} {environment : Environment} {keys : Set Key} {root after : Block}

theorem symm (alike : Alike schema keys root after) : Alike schema keys after root := by
  refine ⟨alike.tree.symm,?_,fun a inside => (alike.same a inside).symm⟩
  rw [alike.tree]
  exact fun a member inside => alike.enclosed a ((alike.same a inside).mpr member) inside

theorem runs (alike : Alike schema keys root after) (environment : Environment) :
    ∃ last last', Runs environment (.start (Declared.ofBlock schema root).tree)
        (Declared.ofBlock schema root).assignments (root.attempts schema environment) last ∧
      Open environment (.start (Declared.ofBlock schema root).tree) (Declared.ofBlock schema after).assignments ∧
      Runs environment (.start (Declared.ofBlock schema root).tree)
        (Declared.ofBlock schema after).assignments (after.attempts schema environment) last' ∧
      (root.load schema environment).2.tree = last.tree ∧ (after.load schema environment).2.tree = last'.tree ∧
      Enclosed keys (Declared.ofBlock schema root).tree ((root.attempts schema environment).map Attempt.assignment) ∧
      ∀ a : Assignment, a.target ∈ keys → (a ∈ (root.attempts schema environment).map Attempt.assignment ↔
        a ∈ (after.attempts schema environment).map Attempt.assignment) := by
  obtain ⟨last,run,_,tree,_⟩ := root.load_runs schema environment
  obtain ⟨last',run',_,tree',_⟩ := after.load_runs schema environment
  have ready' := after.load_open schema environment
  rw [alike.tree] at run' ready'
  have members : ∀ a : Assignment, a ∈ (root.attempts schema environment).map Attempt.assignment ↔
      a ∈ (Declared.ofBlock schema root).assignments := fun _ => run.once.mem_iff
  have members' : ∀ a : Assignment, a ∈ (after.attempts schema environment).map Attempt.assignment ↔
      a ∈ (Declared.ofBlock schema after).assignments := fun _ => run'.once.mem_iff
  refine ⟨last,last',run,ready',run',tree,tree',?_,?_⟩
  · exact fun a member inside => alike.enclosed a ((members a).mp member) inside
  · intro a inside
    rw [members,members']
    exact alike.same a inside

theorem attempt_mem (alike : Alike schema keys root after) {e : Attempt} (inside : e.target ∈ keys)
    (member : e ∈ root.attempts schema environment) : e ∈ after.attempts schema environment := by
  obtain ⟨last,last',run,ready',run',_,_,enclosed,same⟩ := alike.runs environment
  exact run.attempt_on (root.load_open schema environment) ready' run' enclosed same inside member

theorem attempt (alike : Alike schema keys root after) {key : Key} (inside : key ∈ keys) :
    after.attempt? schema environment key = root.attempt? schema environment key := by
  cases found : root.attempt? schema environment key with
  | some e =>
    obtain ⟨member,rfl⟩ := attempt_target found
    exact Block.attempt_mem (alike.attempt_mem inside member)
  | none =>
    cases found' : after.attempt? schema environment key with
    | none => rfl
    | some e =>
      obtain ⟨member,rfl⟩ := attempt_target found'
      rw [Block.attempt_mem (alike.symm.attempt_mem inside member)] at found
      cases found

theorem slot (alike : Alike schema keys root after) {key : Key} (inside : key ∈ keys) :
    ((after.load schema environment).2.tree.slot? key).map (fun entry => (entry.value,entry.deterministic)) =
      ((root.load schema environment).2.tree.slot? key).map fun entry => (entry.value,entry.deterministic) := by
  obtain ⟨last,last',run,ready',run',tree,tree',enclosed,same⟩ := alike.runs environment
  rw [tree,tree']
  exact run.slot_on (root.load_open schema environment) ready' run' enclosed same inside

theorem failure (alike : Alike schema keys root after) {key : Key} (inside : key ∈ keys) :
    after.failure? schema environment key = root.failure? schema environment key := by
  obtain ⟨last,last',run,_,run',tree,tree',_⟩ := alike.runs environment
  have shape := run.shape_both run'
  unfold failure?
  rw [alike.attempt inside,tree,tree']
  exact congrArg (Option.bind _) (funext fun e => e.issue_shape shape)

theorem line (alike : Alike schema keys root after) {key : Key} (inside : key ∈ keys) :
    after.line? schema environment key = root.line? schema environment key := by
  obtain ⟨last,last',run,ready',run',tree,tree',enclosed,same⟩ := alike.runs environment
  unfold line?
  rw [alike.attempt inside,tree,tree']
  cases found : root.attempt? schema environment key with
  | none => rfl
  | some e =>
    obtain ⟨member,rfl⟩ := attempt_target found
    exact run.line_on (root.load_open schema environment) ready' run' enclosed same inside member

end Alike

theorem rewrite_alike (schema : Schema) (root : Block) (key : Key) (raw : String) {other : Key}
    (apart : ¬Relation.ReflTransGen (root.Refers schema) other key) :
    Alike schema {k | Relation.ReflTransGen (root.Refers schema) other k} root (root.rewrite key raw) := by
  refine ⟨Declared.ofBlock_rewrite schema root key raw,?_,?_⟩
  · exact fun a member inside read reads => inside.tail (reads_refers member reads)
  · intro a inside
    have elsewhere : a.target ≠ key := fun here => apart (here ▸ inside)
    exact (Declared.mem_rewrite elsewhere).symm

-- What no references lead from to the key is all the same with another text at the key.
theorem rewrite_local (schema : Schema) (environment : Environment) (root : Block) (key : Key) (raw : String)
    {other : Key} (apart : ¬Relation.ReflTransGen (root.Refers schema) other key) :
    let after := root.rewrite key raw
    ((after.load schema environment).2.tree.slot? other).map (fun entry => (entry.value,entry.deterministic)) =
        ((root.load schema environment).2.tree.slot? other).map (fun entry => (entry.value,entry.deterministic)) ∧
      after.failure? schema environment other = root.failure? schema environment other ∧
      after.line? schema environment other = root.line? schema environment other ∧
      root.Tells schema environment ∧ after.Tells schema environment := by
  intro after
  have alike : Alike schema _ root after := root.rewrite_alike schema key raw apart
  exact ⟨alike.slot .refl,alike.failure .refl,alike.line .refl,root.load_tells schema environment,
    after.load_tells schema environment⟩

end Block

def manifold : Block := ⟨"manifold","main",.blank,[("base","3"),("double","@base * 2"),("spare","1")],[]⟩

theorem rewrite_local_manifold :
    ¬Relation.ReflTransGen (manifold.Refers []) ⟨0,"double"⟩ ⟨0,"spare"⟩ ∧
      (manifold.rewrite ⟨0,"spare"⟩ "@spare + @double").text? ⟨0,"spare"⟩ = some "@spare + @double" ∧
      (((manifold.rewrite ⟨0,"spare"⟩ "@spare + @double").load [] .empty).2.tree.slot? ⟨0,"double"⟩).map
          (fun entry => (entry.value,entry.deterministic)) =
        ((manifold.load [] .empty).2.tree.slot? ⟨0,"double"⟩).map fun entry => (entry.value,entry.deterministic) := by
  have closed : ∀ key ∈ ([⟨0,"double"⟩,⟨0,"base"⟩] : List Key), ∀ other ∈ manifold.references [] key,
      other ∈ ([⟨0,"double"⟩,⟨0,"base"⟩] : List Key) := by decide +kernel
  have apart : ¬Relation.ReflTransGen (manifold.Refers []) ⟨0,"double"⟩ ⟨0,"spare"⟩ := by
    intro path
    have within : ∀ key, Relation.ReflTransGen (manifold.Refers []) ⟨0,"double"⟩ key →
        key ∈ ([⟨0,"double"⟩,⟨0,"base"⟩] : List Key) := by
      intro key path
      induction path with
      | refl => exact List.mem_cons_self
      | tail _ step ih => exact closed _ ih _ step
    exact absurd (within _ path) (by decide)
  obtain ⟨slot,_⟩ := Block.rewrite_local [] .empty manifold ⟨0,"spare"⟩ "@spare + @double" apart
  exact ⟨apart,by decide +kernel,slot⟩

end DeferredAttributes
