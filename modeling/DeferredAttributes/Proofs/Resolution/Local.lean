import Mathlib.Data.Set.Defs
import DeferredAttributes.Proofs.Resolution.Order
import DeferredAttributes.Proofs.Resolver.Reads

-- Two loads over one tree whose attributes differ in part. Keys that both give the same
-- attributes, and that read nothing but such keys, come out of both alike.
namespace DeferredAttributes
open Resolution

def Tree.ExtendsOn (keys : Set Key) (t t' : Tree) : Prop :=
  ∀ key ∈ keys, ∀ content, t.stored? key = some content → t'.stored? key = some content

def Enclosed (keys : Set Key) (t : Tree) (assignments : List Assignment) : Prop :=
  ∀ a ∈ assignments, a.target ∈ keys → ∀ key ∈ a.reads t, key ∈ keys

def ClosedOn (environment : Environment) (keys : Set Key) (t : Tree) (assignments : List Assignment) : Prop :=
  ∀ a ∈ assignments, a.target ∈ keys → a.resolver.check a.raw = .ok () →
    ∀ content, a.answer environment t = .ok content → t.stored? a.target = some content

def Attempt.line? (environment : Environment) (t : Tree) (e : Attempt) : Option (String × List String) :=
  match e.ending with
  | .abandoned => some (t.displayKey e.target,(e.assignment.waitsFor environment t).map t.displayKey)
  | .executed _ | .failed _ => none

theorem Attempt.lines_given (environment : Environment) (t : Tree) (history : List Attempt) :
    history.filterMap (Attempt.line? environment t) = (abandonedOf history).map fun a =>
      (t.displayKey a.target,(a.waitsFor environment t).map t.displayKey) := by
  unfold abandonedOf
  rw [List.map_filterMap]
  apply List.filterMap_congr
  intro e _
  obtain ⟨a,ending⟩ := e
  cases ending <;> rfl

section
variable {environment : Environment} {keys : Set Key} {s s' last : Resolution} {rest : List Assignment}
  {history : List Attempt} {a : Assignment} {ending : Ending} {t : Tree}

theorem Concludes.least_on (builtin : a.resolver.builtin = true) (step : Concludes environment s rest a ending s')
    (sees : a.target ∈ keys → a.Sees s.tree t) (enclosed : Enclosed keys s.tree [a]) (closed : ClosedOn environment keys t [a])
    (below : s.tree.ExtendsOn keys t) : s'.tree.ExtendsOn keys t := by
  intro key inside content found
  cases step with
  | malformed | failed | lost =>
    rw [fail_tree,Tree.stored_setValid] at found
    exact below key inside content found
  | @executed value deterministic entry checked answered known blank =>
    rw [succeed_stored,Tree.stored_put known] at found
    split at found
    · rename_i same
      subst same
      cases found
      have reads : ∀ read ∈ a.reads s.tree, t.stored? read = s.tree.stored? read := by
        intro read member
        obtain ⟨content,has⟩ := Option.isSome_iff_exists.mp
          (Assignment.answer_known builtin checked answered read member)
        rw [has]
        exact below read (enclosed a List.mem_cons_self inside read member) content has
      have again : a.answer environment t = .ok (value,deterministic) := by
        rw [Assignment.answer_alike builtin checked (sees inside) reads,answered]
      exact closed a List.mem_cons_self inside checked _ again
    · exact below key inside content found

theorem Runs.least_on (ready : Open environment s rest) (run : Runs environment s rest history last)
    (sees : ∀ a ∈ history.map Attempt.assignment, a.target ∈ keys → a.Sees s.tree t)
    (enclosed : Enclosed keys t (history.map Attempt.assignment))
    (closed : ClosedOn environment keys t (history.map Attempt.assignment)) (below : s.tree.ExtendsOn keys t) :
    last.tree.ExtendsOn keys t := by
  induction run with
  | empty => exact below
  | @concluded s s' last a rest ending later step next ih =>
    have own : Enclosed keys s.tree [a] := by
      intro b member inside
      rw [List.mem_singleton.mp member] at inside ⊢
      rw [← (sees a List.mem_cons_self inside).reads]
      exact enclosed a List.mem_cons_self inside
    have single : ClosedOn environment keys t [a] := by
      intro b member
      rw [List.mem_singleton.mp member]
      exact closed a List.mem_cons_self
    exact ih (ready.concluded step)
      (fun b member inside => (step.grows.shape.symm.sees b).trans (sees b (List.mem_cons_of_mem _ member) inside))
      (fun b member => enclosed b (List.mem_cons_of_mem _ member))
      (fun b member => closed b (List.mem_cons_of_mem _ member))
      (step.least_on ready.head.builtin (sees a List.mem_cons_self) own single below)
  | parked checked answered next ih => exact ih (ready.parked checked answered) sees enclosed closed below
  | taken first next ih => exact ih (ready.taken first).1 sees enclosed closed below
  | @abandoned s some stuck =>
    intro key inside content found
    rw [abandon_stored] at found
    exact below key inside content found

end

-- Two runs from one state. The keys have the same attributes in both, which read nothing but
-- them.
section
variable {environment : Environment} {keys : Set Key} {s last last' : Resolution} {rest rest' : List Assignment}
  {history history' : List Attempt}
  (ready : Open environment s rest) (run : Runs environment s rest history last)
  (ready' : Open environment s rest') (run' : Runs environment s rest' history' last')
  (enclosed : Enclosed keys s.tree (history.map Attempt.assignment))
  (same : ∀ a : Assignment, a.target ∈ keys →
    (a ∈ history.map Attempt.assignment ↔ a ∈ history'.map Attempt.assignment))
include ready run ready' run' enclosed same

omit ready run ready' run' in
theorem Enclosed.other : Enclosed keys s.tree (history'.map Attempt.assignment) :=
  fun a member inside => enclosed a ((same a inside).mpr member) inside

omit enclosed same ready ready' in
theorem Runs.shape_both : last.tree.SameShape last'.tree := run.grows.shape.symm.trans run'.grows.shape

theorem Runs.below_on : last.tree.ExtendsOn keys last'.tree := by
  have there := run'.grows.shape
  refine run.least_on ready (fun a _ _ => there.sees a) ?_ ?_ fun key _ content => run'.grows.kept key content
  · intro a member inside
    rw [there.reads]
    exact enclosed a member inside
  · intro a member inside
    exact (run'.truthful ready').closed a ((same a inside).mp member)

theorem Runs.stored_on {key : Key} (inside : key ∈ keys) : last.tree.stored? key = last'.tree.stored? key := by
  have there := run.below_on ready ready' run' enclosed same key inside
  have back := run'.below_on ready' ready run (enclosed.other same) (fun a inside => (same a inside).symm) key inside
  cases found : last.tree.stored? key with
  | some content => exact (there content found).symm
  | none =>
    cases found' : last'.tree.stored? key with
    | none => rfl
    | some content => rw [back content found'] at found; cases found

theorem Runs.answer_on {a : Assignment} (member : a ∈ history.map Attempt.assignment) (inside : a.target ∈ keys)
    (checked : a.resolver.check a.raw = .ok ()) :
    a.answer environment last'.tree = a.answer environment last.tree := by
  refine Assignment.answer_agree (ready.builtin run member) checked (run.shape_both run') ?_
  intro key read
  rw [run.grows.shape.reads] at read
  exact (run.stored_on ready ready' run' enclosed same (enclosed a member inside key read)).symm

omit ready run ready' run' enclosed in
theorem Runs.listed_on {a : Assignment} (inside : a.target ∈ keys) (given : a ∈ abandonedOf history) :
    a ∈ history.map Attempt.assignment ∧ a ∈ history'.map Attempt.assignment := by
  have member : a ∈ history.map Attempt.assignment := List.mem_map.mpr ⟨_,mem_abandonedOf.mp given,rfl⟩
  exact ⟨member,(same a inside).mp member⟩

-- What the one run gives up of the keys supports itself in the other. An attribute of theirs
-- waits for the leftmost key without a value that it reads, and that is a key of theirs.
theorem Runs.supported_on {circle : List Key}
    (circled : ∀ key, key ∈ circle ↔ key ∈ (abandonedOf history).map Assignment.target ∧ key ∈ keys) :
    Supported environment last'.tree history' circle := by
  intro e present among
  obtain ⟨given,inside⟩ := (circled _).mp among
  obtain ⟨a,given,target⟩ := List.mem_map.mp given
  rw [← target] at inside
  obtain ⟨member,member'⟩ := Runs.listed_on same inside given
  obtain ⟨e',present',own⟩ := List.mem_map.mp member'
  have equal : e' = e := ready'.only run' present' present (by rw [Attempt.target,own,target])
  rw [← equal,own]
  obtain ⟨later,_,upheld⟩ := (run.truthful ready).mem (mem_abandonedOf.mp given)
  cases upheld with
  | @abandoned key checked answered waited _ _ =>
    have read : key ∈ a.reads last.tree :=
      List.mem_of_find?_eq_some (Assignment.answer_blocked (ready.builtin run member) checked answered)
    rw [run.grows.shape.reads] at read
    have inside' := enclosed a member inside key read
    refine ⟨checked,key,(circled key).mpr ⟨waited,inside'⟩,?_,?_⟩
    · rw [run.answer_on ready ready' run' enclosed same member inside checked]
      exact answered
    · obtain ⟨b,given',rfl⟩ := List.mem_map.mp waited
      obtain ⟨e'',present'',own'⟩ := List.mem_map.mp (Runs.listed_on same inside' given').2
      exact List.mem_map.mpr ⟨e'',present'',by rw [Attempt.target,own']⟩

theorem Runs.circle_on {a : Assignment} (inside : a.target ∈ keys) (given : a ∈ abandonedOf history) :
    a ∈ abandonedOf history' := by
  classical
  have support : Supported environment last'.tree history'
      (((abandonedOf history).map Assignment.target).filter (· ∈ keys)) :=
    run.supported_on ready ready' run' enclosed same (by simp)
  obtain ⟨_,member'⟩ := Runs.listed_on same inside given
  obtain ⟨e,present,own⟩ := List.mem_map.mp member'
  obtain ⟨before,later,place⟩ := List.append_of_mem present
  have ending := (run'.truthful ready').supported support place
    (by simpa [Attempt.target,own,inside] using ⟨a,given,rfl⟩)
  obtain ⟨b,ended⟩ := e
  cases own
  cases ending
  exact mem_abandonedOf.mpr present

theorem Runs.verdict_on {a : Assignment} (member : a ∈ history.map Attempt.assignment) (inside : a.target ∈ keys) :
    a.verdict environment last'.tree ((abandonedOf history').map Assignment.target) =
      a.verdict environment last.tree ((abandonedOf history).map Assignment.target) := by
  have names := (run.shape_both run').displayKey
  have circle : a.target ∈ (abandonedOf history').map Assignment.target ↔
      a.target ∈ (abandonedOf history).map Assignment.target := by
    constructor
    · intro among
      obtain ⟨b,given,target⟩ := List.mem_map.mp among
      exact List.mem_map.mpr ⟨b,run'.circle_on ready' ready run (enclosed.other same)
        (fun a inside => (same a inside).symm) (target ▸ inside) given,target⟩
    · intro among
      obtain ⟨b,given,target⟩ := List.mem_map.mp among
      exact List.mem_map.mpr ⟨b,run.circle_on ready ready' run' enclosed same (target ▸ inside) given,target⟩
  unfold Assignment.verdict
  cases checked : a.resolver.check a.raw with
  | error error => rfl
  | ok passed => simp only [run.answer_on ready ready' run' enclosed same member inside checked,circle,names]

theorem Runs.attempt_on {e : Attempt} (inside : e.target ∈ keys) (member : e ∈ history) : e ∈ history' := by
  have known : e.assignment ∈ history.map Attempt.assignment := List.mem_map.mpr ⟨e,member,rfl⟩
  have verdict := run.verdict_on ready ready' run' enclosed same known inside
  rw [run.verdicts ready] at member
  obtain ⟨a,present,ended⟩ := List.mem_map.mp member
  have own : e.assignment = a := by rw [← ended]
  rw [run'.verdicts ready']
  refine List.mem_map.mpr ⟨a,own ▸ (same e.assignment inside).mp known,?_⟩
  rw [← ended,← own,verdict]

theorem Runs.slot_on {key : Key} (inside : key ∈ keys) :
    (last'.tree.slot? key).map (fun entry => (entry.value,entry.deterministic)) =
      (last.tree.slot? key).map fun entry => (entry.value,entry.deterministic) := by
  have equal := run.stored_on ready ready' run' enclosed same inside
  cases found : last.tree.stored? key with
  | none => rw [run.blank_slot found,run'.blank_slot (equal ▸ found)]
  | some content => rw [Tree.slot_stored found,Tree.slot_stored (equal ▸ found)]

theorem Runs.line_on {e : Attempt} (inside : e.target ∈ keys) (member : e ∈ history) :
    e.line? environment last'.tree = e.line? environment last.tree := by
  have known : e.assignment ∈ history.map Attempt.assignment := List.mem_map.mpr ⟨e,member,rfl⟩
  have answer := run.answer_on ready ready' run' enclosed same known inside
  obtain ⟨later,_,upheld⟩ := (run.truthful ready).mem member
  obtain ⟨a,ending⟩ := e
  dsimp only at upheld
  cases upheld with
  | malformed | failed | lost | executed => rfl
  | abandoned checked =>
    have names : last'.tree.displayKey = last.tree.displayKey := funext (run.shape_both run').displayKey
    unfold Attempt.line? Assignment.waitsFor
    simp only [answer checked,names]

end
end DeferredAttributes
