import DeferredAttributes.Proofs.Resolution.Ledger

-- The tree that a run leaves solves its attributes: what an attribute comes to over that tree
-- is what its key holds, and where a key holds nothing, its text comes to nothing either.
namespace DeferredAttributes
open Resolution

-- What is true of an attempt that ended, over the tree that the run leaves. `circle` are the
-- keys that were given up together, `later` the attempts that ended after this one.
inductive Upheld (environment : Environment) (t : Tree) (circle : List Key) (later : List Attempt)
    (a : Assignment) : Ending → Prop where
  | malformed {error : ResolveError} (checked : a.resolver.check a.raw = .error error)
      (blank : t.stored? a.target = none) : Upheld environment t circle later a (.failed error)
  | failed {error : ResolveError} (checked : a.resolver.check a.raw = .ok ())
      (answered : a.answer environment t = .error error) (final : ∀ key, error ≠ .blocked key)
      (blank : t.stored? a.target = none) : Upheld environment t circle later a (.failed error)
  | lost {key : Key} (checked : a.resolver.check a.raw = .ok ())
      (answered : a.answer environment t = .error (.blocked key)) (other : key ≠ a.target)
      (absent : key ∉ later.map Attempt.target) (blank : t.stored? a.target = none) :
      Upheld environment t circle later a (.failed (.unknownIdentifier (t.displayKey key)))
  | executed {value : Value} {deterministic : Bool} (checked : a.resolver.check a.raw = .ok ())
      (answered : a.answer environment t = .ok (value,deterministic))
      (stored : t.stored? a.target = some (value,deterministic)) :
      Upheld environment t circle later a (.executed ⟨deterministic,a.rejection value⟩)
  | abandoned {key : Key} (checked : a.resolver.check a.raw = .ok ())
      (answered : a.answer environment t = .error (.blocked key)) (member : key ∈ circle)
      (last : ∀ e ∈ later, e.ending = .abandoned) (blank : t.stored? a.target = none) :
      Upheld environment t circle later a .abandoned

def Truthful (environment : Environment) (t : Tree) (circle : List Key) : List Attempt → Prop
  | [] => True
  | e :: later => Upheld environment t circle later e.assignment e.ending ∧ Truthful environment t circle later

section
variable {environment : Environment} {s s' last : Resolution} {rest : List Assignment} {history : List Attempt}
  {t : Tree} {circle : List Key}

theorem Truthful.split {before later : List Attempt} {e : Attempt}
    (truthful : Truthful environment t circle (before ++ e :: later)) :
    Upheld environment t circle later e.assignment e.ending := by
  induction before with
  | nil => exact truthful.1
  | cons first before ih => exact ih truthful.2

theorem Truthful.mem (truthful : Truthful environment t circle history) {e : Attempt} (member : e ∈ history) :
    ∃ later, (∀ l ∈ later, l ∈ history) ∧ Upheld environment t circle later e.assignment e.ending := by
  obtain ⟨before,later,rfl⟩ := List.append_of_mem member
  exact ⟨later,fun l present => List.mem_append_right _ (List.mem_cons_of_mem _ present),truthful.split⟩

theorem Upheld.solved {a : Assignment} {later : List Attempt} {ending : Ending}
    (upheld : Upheld environment t circle later a ending) {content : Value × Bool}
    (stored : t.stored? a.target = some content) : a.answer environment t = .ok content := by
  cases upheld with
  | malformed checked blank => rw [blank] at stored; cases stored
  | failed checked answered final blank => rw [blank] at stored; cases stored
  | lost checked answered other absent blank => rw [blank] at stored; cases stored
  | abandoned checked answered member last blank => rw [blank] at stored; cases stored
  | executed checked answered has =>
    rw [has] at stored
    cases stored
    exact answered

theorem Upheld.unsolved {a : Assignment} {later : List Attempt} {ending : Ending}
    (upheld : Upheld environment t circle later a ending) (checked : a.resolver.check a.raw = .ok ())
    (blank : t.stored? a.target = none) : ∃ error, a.answer environment t = .error error := by
  cases upheld with
  | malformed malformed blank =>
    rw [malformed] at checked
    cases checked
  | failed checked answered | lost checked answered | abandoned checked answered => exact ⟨_,answered⟩
  | executed checked answered has =>
    rw [has] at blank
    cases blank

section
variable {a : Assignment} {later : List Attempt} {ending : Ending}
  (upheld : Upheld environment t circle later a ending) (checked : a.resolver.check a.raw = .ok ())
include upheld checked

theorem Upheld.ends_executed {value : Value} {deterministic : Bool}
    (answered : a.answer environment t = .ok (value,deterministic)) :
    ending = .executed ⟨deterministic,a.rejection value⟩ ∧ t.stored? a.target = some (value,deterministic) := by
  cases upheld with
  | malformed failed => rw [checked] at failed; cases failed
  | failed _ other | lost _ other | abandoned _ other => rw [answered] at other; cases other
  | executed _ same stored =>
    rw [answered] at same
    cases same
    exact ⟨rfl,stored⟩

theorem Upheld.ends_failed {error : ResolveError} (answered : a.answer environment t = .error error)
    (final : ∀ key, error ≠ .blocked key) : ending = .failed error ∧ t.stored? a.target = none := by
  cases upheld with
  | malformed failed => rw [checked] at failed; cases failed
  | failed _ same _ blank =>
    rw [answered] at same
    cases same
    exact ⟨rfl,blank⟩
  | lost _ same | abandoned _ same =>
    rw [answered] at same
    cases same
    exact absurd rfl (final _)
  | executed _ other => rw [answered] at other; cases other

end

theorem Concludes.not_abandoned {a : Assignment} {ending : Ending}
    (step : Concludes environment s rest a ending s') : ending ≠ .abandoned := by
  intro same
  cases step <;> cases same

theorem abandonedOf_cons {a : Assignment} {ending : Ending} (other : ending ≠ .abandoned) (later : List Attempt) :
    abandonedOf (⟨a,ending⟩ :: later) = abandonedOf later := by
  cases ending with
  | executed | failed => rfl
  | abandoned => exact absurd rfl other

theorem abandonedOf_map (pending : List Parked) :
    abandonedOf (pending.map fun p => ⟨p.assignment,.abandoned⟩) = pending.map Parked.assignment := by
  induction pending with
  | nil => rfl
  | cons p rest ih => exact congrArg (p.assignment :: ·) ih

theorem Concludes.upheld {a : Assignment} {ending : Ending} {later : List Attempt}
    (ready : Open environment s (a :: rest)) (step : Concludes environment s rest a ending s')
    (next : Runs environment s' rest later last) (circle : List Key) :
    Upheld environment last.tree circle later a ending := by
  have builtin := ready.head.builtin
  have grows := step.grows.trans next.grows
  have keys : s'.openKeys rest = s.openKeys rest := by
    unfold openKeys
    rw [step.pending]
  have own : last.tree.stored? a.target = s'.tree.stored? a.target :=
    next.untouched (by rw [keys]; exact ready.fresh)
  have blank : s.tree.stored? a.target = none := ready.head.blank
  cases step with
  | malformed checked =>
    exact .malformed checked (by rw [own,fail_tree,Tree.stored_setValid,blank])
  | failed checked answered final =>
    refine .failed checked (Assignment.answer_kept builtin grows answered ?_) final ?_
    · intro key impossible
      exact absurd impossible (final key)
    · rw [own,fail_tree,Tree.stored_setValid,blank]
  | @lost key checked answered other absent =>
    have still : last.tree.stored? key = none := by
      rw [next.untouched (by rw [keys]; exact absent),fail_tree,Tree.stored_setValid]
      exact (Assignment.answer_waits builtin answered).2
    rw [← grows.shape.displayKey]
    refine .lost checked (Assignment.answer_kept builtin grows answered ?_) other ?_ ?_
    · intro other same
      cases same
      exact still
    · intro member
      exact absent (by rw [← keys]; exact next.targets.mem_iff.mp member)
    · rw [own,fail_tree,Tree.stored_setValid,blank]
  | executed checked answered found empty =>
    refine .executed checked (Assignment.answer_done builtin grows answered) (next.grows.kept _ _ ?_)
    rw [succeed_stored,Tree.stored_put found,if_pos rfl]

theorem Open.stuck_answer (ready : Open environment s [])
    (stuck : Parked.takeReady? (Parked.settled s.pending) = none) {p : Parked} (member : p ∈ s.pending) :
    ∃ key ∈ Parked.targets s.pending, (p.settle (Parked.targets s.pending)).blockers = [key] ∧
      p.assignment.resolver.check p.assignment.raw = .ok () ∧
      p.assignment.answer environment (s.abandon (Parked.settled s.pending)).tree = .error (.blocked key) := by
  obtain ⟨key,parked,one,checked,answered⟩ := ready.stuck stuck member
  have builtin := (ready.ready p.assignment (List.mem_append_left _ (List.mem_map.mpr ⟨p,member,rfl⟩))).builtin
  refine ⟨key,parked,one,checked,Assignment.answer_kept builtin (abandon_extends ..) answered ?_⟩
  intro other same
  cases same
  rw [abandon_stored]
  exact (Assignment.answer_waits builtin answered).2

theorem Open.stuck_upheld (ready : Open environment s [])
    (stuck : Parked.takeReady? (Parked.settled s.pending) = none) {p : Parked} (member : p ∈ s.pending)
    (later : List Attempt) (last : ∀ e ∈ later, e.ending = .abandoned) :
    Upheld environment (s.abandon (Parked.settled s.pending)).tree (Parked.targets s.pending) later
      p.assignment .abandoned := by
  obtain ⟨key,parked,_,checked,answered⟩ := ready.stuck_answer stuck member
  have own := ready.ready p.assignment (List.mem_append_left _ (List.mem_map.mpr ⟨p,member,rfl⟩))
  exact .abandoned checked answered parked last (by rw [abandon_stored,own.blank])

theorem Runs.truthful (ready : Open environment s rest) (run : Runs environment s rest history last) :
    Truthful environment last.tree ((abandonedOf history).map Assignment.target) history := by
  induction run with
  | empty => trivial
  | concluded step next ih =>
    rw [abandonedOf_cons step.not_abandoned]
    exact ⟨step.upheld ready next _,ih (ready.concluded step)⟩
  | parked checked answered next ih => exact ih (ready.parked checked answered)
  | taken first next ih => exact ih (ready.taken first).1
  | @abandoned s some stuck =>
    rw [abandonedOf_map,List.map_map]
    -- over the parked attempts from some place on
    have from' : ∀ left : List Parked, (∀ p ∈ left, p ∈ s.pending) →
        Truthful environment (s.abandon (Parked.settled s.pending)).tree (Parked.targets s.pending)
          (left.map fun p => ⟨p.assignment,.abandoned⟩) := by
      intro left among
      induction left with
      | nil => trivial
      | cons p left ih =>
        refine ⟨ready.stuck_upheld stuck (among p List.mem_cons_self) _ ?_,
          ih fun q member => among q (List.mem_cons_of_mem _ member)⟩
        intro e member
        obtain ⟨q,_,rfl⟩ := List.mem_map.mp member
        rfl
    exact from' s.pending fun _ member => member

end
end DeferredAttributes
