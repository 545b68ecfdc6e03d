import Mathlib.Data.List.Nodup
import DeferredAttributes.Proofs.Resolution.Reported

-- A run has no choice. Its tree is the least that solves the attributes, its circle the largest
-- that supports itself, and the two together decide how every attempt ends.
namespace DeferredAttributes
open Resolution

theorem Node.SameShape.symm {a b : Node} (same : a.SameShape b) : b.SameShape a :=
  ⟨same.name.symm,same.parent.symm,same.children.symm,same.origin.symm,same.names.symm,
    fun name => (same.types name).symm⟩

theorem Tree.SameShape.symm {a b : Tree} (same : a.SameShape b) : b.SameShape a :=
  ⟨same.size.symm,fun i => (same.nodes i).symm⟩

def Closed (environment : Environment) (t : Tree) (assignments : List Assignment) : Prop :=
  ∀ a ∈ assignments, a.resolver.check a.raw = .ok () →
    ∀ content, a.answer environment t = .ok content → t.stored? a.target = some content

section
variable {environment : Environment} {s s' last : Resolution} {rest : List Assignment} {history : List Attempt}
  {t : Tree}

theorem Open.builtin {a : Assignment} (ready : Open environment s rest) (run : Runs environment s rest history last)
    (member : a ∈ history.map Attempt.assignment) : a.resolver.builtin = true :=
  (ready.ready a (run.once.mem_iff.mp member)).builtin

theorem Open.nodup (ready : Open environment s rest) (run : Runs environment s rest history last) :
    (history.map Attempt.target).Nodup :=
  run.targets.nodup_iff.mpr ready.distinct

theorem Open.only (ready : Open environment s rest) (run : Runs environment s rest history last) {e e' : Attempt}
    (one : e ∈ history) (two : e' ∈ history) (same : e.target = e'.target) : e = e' :=
  List.inj_on_of_nodup_map (ready.nodup run) one two same

theorem Concludes.least {a : Assignment} {ending : Ending} (builtin : a.resolver.builtin = true)
    (step : Concludes environment s rest a ending s') (closed : Closed environment t [a])
    (below : s.tree.Extends t) : s'.tree.Extends t := by
  refine ⟨step.grows.shape.symm.trans below.shape,?_⟩
  cases step with
  | malformed | failed | lost =>
    intro key content found
    rw [fail_tree,Tree.stored_setValid] at found
    exact below.kept key content found
  | executed checked answered known blank =>
    intro key content found
    rw [succeed_stored,Tree.stored_put known] at found
    split at found
    · rename_i same
      rw [same]
      cases found
      exact closed a List.mem_cons_self checked _ (Assignment.answer_done builtin below answered)
    · exact below.kept key content found

theorem Runs.least (ready : Open environment s rest) (run : Runs environment s rest history last)
    (closed : Closed environment t (history.map Attempt.assignment)) (below : s.tree.Extends t) :
    last.tree.Extends t := by
  induction run with
  | empty => exact below
  | concluded step next ih =>
    refine ih (ready.concluded step) (fun b member => closed b (List.mem_cons_of_mem _ member)) ?_
    refine step.least ready.head.builtin (fun b member => closed b ?_) below
    rw [List.mem_singleton.mp member]
    exact List.mem_cons_self
  | parked checked answered next ih => exact ih (ready.parked checked answered) closed below
  | taken first next ih => exact ih (ready.taken first).1 closed below
  | @abandoned s some stuck =>
    refine ⟨(abandon_extends ..).shape.symm.trans below.shape,?_⟩
    intro key content found
    rw [abandon_stored] at found
    exact below.kept key content found

theorem Upheld.closed {a : Assignment} {circle : List Key} {later : List Attempt} {ending : Ending}
    (upheld : Upheld environment t circle later a ending) (checked : a.resolver.check a.raw = .ok ())
    {content : Value × Bool} (answered : a.answer environment t = .ok content) :
    t.stored? a.target = some content := by
  cases stored : t.stored? a.target with
  | none =>
    obtain ⟨error,failed⟩ := upheld.unsolved checked stored
    rw [failed] at answered
    cases answered
  | some other =>
    have solved := upheld.solved stored
    rw [solved] at answered
    cases answered
    rfl

theorem Truthful.closed {circle : List Key} (truthful : Truthful environment t circle history) :
    Closed environment t (history.map Attempt.assignment) := by
  intro a member checked content answered
  obtain ⟨e,present,rfl⟩ := List.mem_map.mp member
  obtain ⟨later,_,upheld⟩ := truthful.mem present
  exact upheld.closed checked answered

def Supported (environment : Environment) (t : Tree) (history : List Attempt) (keys : List Key) : Prop :=
  ∀ e ∈ history, e.target ∈ keys → e.assignment.resolver.check e.assignment.raw = .ok () ∧
    ∃ key ∈ keys, e.assignment.answer environment t = .error (.blocked key) ∧ key ∈ history.map Attempt.target

-- The first of their attributes to fail would have waited for a key that could still get a value,
-- so all of them are given up.
theorem Truthful.supported {circle keys : List Key} (truthful : Truthful environment t circle history)
    (support : Supported environment t history keys) {before later : List Attempt} {e : Attempt}
    (place : history = before ++ e :: later) (member : e.target ∈ keys) : e.ending = .abandoned := by
  induction size : before.length using Nat.strongRecOn generalizing before later e with
  | ind n ih =>
    obtain ⟨checked,key,among,waits,known⟩ := support e (by rw [place]; simp) member
    have upheld := truthful
    rw [place] at upheld
    have upheld := upheld.split
    obtain ⟨a,ending⟩ := e
    dsimp only at upheld checked waits
    cases upheld with
    | malformed malformed =>
      rw [malformed] at checked
      cases checked
    | failed _ answered final =>
      rw [answered] at waits
      cases waits
      exact absurd rfl (final key)
    | executed _ answered =>
      rw [answered] at waits
      cases waits
    | abandoned => rfl
    | @lost other _ answered apart absent =>
      rw [answered] at waits
      cases waits
      rw [place] at known
      have earlier : key ∈ before.map Attempt.target := by
        simp only [List.map_append,List.map_cons,List.mem_append,List.mem_cons] at known
        rcases known with earlier | same | later
        · exact earlier
        · exact absurd same apart
        · exact absurd later absent
      obtain ⟨e',present,same⟩ := List.mem_map.mp earlier
      obtain ⟨front,back,rfl⟩ := List.append_of_mem present
      have place' : history = front ++ e' :: (back ++ ⟨a,.failed (.unknownIdentifier (t.displayKey key))⟩ :: later) := by
        rw [place,List.append_assoc,List.cons_append]
      have given := ih front.length (by rw [← size]; simp) place' (by rw [same]; exact among) rfl
      have upheld' := truthful
      rw [place'] at upheld'
      have upheld' := upheld'.split
      rw [given] at upheld'
      cases upheld' with
      | abandoned _ _ _ last => exact last _ (List.mem_append_right _ List.mem_cons_self)

theorem mem_abandonedOf {a : Assignment} : a ∈ abandonedOf history ↔ ⟨a,.abandoned⟩ ∈ history := by
  unfold abandonedOf
  rw [List.mem_filterMap]
  constructor
  · rintro ⟨⟨b,ending⟩,member,found⟩
    cases ending with
    | executed | failed => cases found
    | abandoned => cases found; exact member
  · intro member
    exact ⟨_,member,rfl⟩

theorem abandonedOf_sublist (history : List Attempt) :
    (abandonedOf history).Sublist (history.map Attempt.assignment) := by
  induction history with
  | nil => exact .slnil
  | cons e rest ih =>
    obtain ⟨a,ending⟩ := e
    cases ending with
    | executed | failed => exact ih.cons a
    | abandoned => exact ih.cons_cons a

-- How an attempt ends, decided by the tree that is left and by who is given up.
def Assignment.verdict (environment : Environment) (t : Tree) (circle : List Key) (a : Assignment) : Ending :=
  match a.resolver.check a.raw with
  | .error error => .failed error
  | .ok () =>
    match a.answer environment t with
    | .ok (value,deterministic) => .executed ⟨deterministic,a.rejection value⟩
    | .error (.blocked key) =>
      if a.target ∈ circle then .abandoned else .failed (.unknownIdentifier (t.displayKey key))
    | .error error => .failed error

theorem Upheld.verdict {a : Assignment} {circle : List Key} {later : List Attempt} {ending : Ending}
    (upheld : Upheld environment t circle later a ending) (given : ending = .abandoned ↔ a.target ∈ circle) :
    ending = a.verdict environment t circle := by
  unfold Assignment.verdict
  cases upheld with
  | malformed checked => rw [checked]
  | failed checked answered final =>
    rename_i error _
    rw [checked,answered]
    cases error with
    | blocked key => exact absurd rfl (final key)
    | unknownIdentifier | malformed | lookup | conversion | store | validation => rfl
  | lost checked answered =>
    have apart : a.target ∉ circle := by
      rw [← given]
      intro impossible
      cases impossible
    rw [checked,answered]
    dsimp only
    rw [if_neg apart]
  | executed checked answered => rw [checked,answered]
  | abandoned checked answered =>
    rw [checked,answered]
    dsimp only
    rw [if_pos (given.mp rfl)]

theorem Runs.verdicts (ready : Open environment s rest) (run : Runs environment s rest history last) :
    history = (history.map Attempt.assignment).map fun a =>
      ⟨a,a.verdict environment last.tree ((abandonedOf history).map Assignment.target)⟩ := by
  have truthful := run.truthful ready
  rw [List.map_map]
  conv => lhs; rw [← List.map_id history]
  apply List.map_congr_left
  intro e member
  obtain ⟨later,_,upheld⟩ := truthful.mem member
  have given : e.ending = .abandoned ↔ e.target ∈ (abandonedOf history).map Assignment.target := by
    constructor
    · intro same
      apply List.mem_map.mpr
      refine ⟨e.assignment,mem_abandonedOf.mpr ?_,rfl⟩
      rw [← same]
      exact member
    · intro among
      obtain ⟨a,present,same⟩ := List.mem_map.mp among
      have other := mem_abandonedOf.mp present
      have equal : (⟨a,.abandoned⟩ : Attempt) = e := ready.only run other member same
      rw [← equal]
  have verdict := upheld.verdict given
  obtain ⟨a,ending⟩ := e
  exact congrArg (Attempt.mk a) verdict

end
end DeferredAttributes
