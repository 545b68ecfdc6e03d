import DeferredAttributes.Proofs.Resolution.Answer
import DeferredAttributes.Resolution.Refresh

-- The attempts of a run that came to an end, in the order in which they ended. An attempt
-- that is parked, or goes back to be parked again, has not ended.
namespace DeferredAttributes

-- Whether the value was stored, or why there is none. The last case is that of attributes
-- that wait for each other.
inductive Ending where
  | executed (done : Executed)
  | failed (error : ResolveError)
  | abandoned

structure Attempt where
  assignment : Assignment
  ending : Ending

namespace Attempt

def target (e : Attempt) : Key := e.assignment.target

-- An attempt whose value is turned down fails too, although the value is stored.
def fails (e : Attempt) : Bool :=
  match e.ending with
  | .executed done => done.rejected.isSome
  | .failed _ | .abandoned => true

-- What the report says about the attempt itself. Attempts that are abandoned share one
-- issue of their own.
def issue? (t : Tree) (e : Attempt) : Option Issue :=
  match e.ending with
  | .executed done => done.rejected.map fun reason => e.assignment.issue t (.validation reason)
  | .failed error => some (e.assignment.issue t error)
  | .abandoned => none

def retained? (e : Attempt) : Option Assignment :=
  match e.ending with
  | .executed done => if done.deterministic then none else some e.assignment
  | .failed _ | .abandoned => none

end Attempt

namespace Resolution

def loadEnding? (environment : Environment) (s : Resolution) (a : Assignment) : Option Ending :=
  match a.resolver.check a.raw with
  | .error error => some (.failed error)
  | .ok () =>
    match a.execute environment (s.tree.declare a.target.node a.target.name a.resolver.type) with
    | .ok (done,_) => some (.executed done)
    | .error (.blocked _) => none
    | .error error => some (.failed error)

def attemptEnding? (environment : Environment) (s : Resolution) (p : Parked) (others : List Parked) :
    Option Ending :=
  match p.assignment.execute environment s.tree with
  | .ok (done,_) => some (.executed done)
  | .error (.blocked key) =>
    if key ∈ Parked.targets (p :: others) then none
    else some (.failed (.unknownIdentifier (s.tree.displayKey key)))
  | .error error => some (.failed error)

def ended (a : Assignment) (ending : Option Ending) : List Attempt := ending.toList.map (Attempt.mk a)

def loadHistory (environment : Environment) : Resolution → List Assignment → List Attempt
  | _, [] => []
  | s, a :: rest => ended a (s.loadEnding? environment a) ++ loadHistory environment (s.load environment a) rest

def drainHistory (environment : Environment) (s : Resolution) : List Attempt :=
  if s.pending.isEmpty then [] else
  match _ : Parked.takeReady? (Parked.settled s.pending) with
  | none => s.pending.map fun p => ⟨p.assignment,.abandoned⟩
  | some (p,others) =>
    ended p.assignment (s.attemptEnding? environment p others) ++
      (s.attempt environment p others).drainHistory environment
termination_by (s.pending.length,Parked.readyCount s.pending)
decreasing_by exact attempt_decreases environment s ‹_›

def history (environment : Environment) (s : Resolution) (assignments : List Assignment) : List Attempt :=
  loadHistory environment s assignments ++ (assignments.foldl (load environment) s).drainHistory environment

end Resolution

open Resolution

-- What an attribute that is still to be resolved is promised: a resolver that does not
-- change its mind, and a key that is declared with its type and holds nothing yet.
structure Assignment.Ready (t : Tree) (a : Assignment) : Prop where
  builtin : a.resolver.builtin = true
  typed : ((t.node a.target.node).entries.find? a.target.name).map Entry.type = some a.resolver.type
  blank : t.stored? a.target = none

-- The same but for the type. Where the key has another one, no value of the attribute's is
-- ever stored.
structure Assignment.Awaited (t : Tree) (a : Assignment) : Prop where
  builtin : a.resolver.builtin = true
  declared : (t.slot? a.target).isSome = true
  blank : t.stored? a.target = none

theorem Assignment.Ready.awaited {t : Tree} {a : Assignment} (ready : a.Ready t) : a.Awaited t := by
  refine ⟨ready.builtin,?_,ready.blank⟩
  rw [← Option.isSome_map]
  exact congrArg Option.isSome ready.typed

theorem Assignment.Ready.fits {t t' : Tree} {a : Assignment} (ready : a.Ready t) (same : t.SameShape t')
    {scope : Scope} {value : Value} (resolved : (a.resolver.resolve a.raw scope false).1 = .ok value) :
    t'.refusal? a.target value = none := by
  obtain ⟨entry,found,typed⟩ := Option.map_eq_some_iff.mp ready.typed
  rw [same.refusal,Tree.refusal_typed found,typed]
  exact Resolver.resolve_type ready.builtin resolved

theorem Assignment.Awaited.entry {t : Tree} {a : Assignment} (awaited : a.Awaited t) :
    ∃ entry, t.slot? a.target = some entry ∧ entry.value = none := by
  obtain ⟨entry,found⟩ := Option.isSome_iff_exists.mp awaited.declared
  exact ⟨entry,found,Tree.slot_blank found awaited.blank⟩

theorem Assignment.Awaited.kept {t t' : Tree} {a : Assignment} (awaited : a.Awaited t) (same : t.SameShape t')
    (blank : t'.stored? a.target = none) : a.Awaited t' :=
  ⟨awaited.builtin,(same.slot_isSome _).trans awaited.declared,blank⟩

def Resolution.openKeys (s : Resolution) (rest : List Assignment) : List Key :=
  Parked.targets s.pending ++ rest.map Assignment.target

-- How an attempt ends, and what becomes of the tree and the lists. An attribute that waits
-- for a key fails when nothing, itself included, can give that key a value any more.
inductive Concludes (environment : Environment) (s : Resolution) (rest : List Assignment) (a : Assignment) :
    Ending → Resolution → Prop where
  | malformed {error : ResolveError} (checked : a.resolver.check a.raw = .error error) :
      Concludes environment s rest a (.failed error) (s.fail a error)
  | failed {error : ResolveError} (checked : a.resolver.check a.raw = .ok ())
      (answered : a.answer environment s.tree = .error error) (final : ∀ key, error ≠ .blocked key) :
      Concludes environment s rest a (.failed error) (s.fail a error)
  | lost {key : Key} (checked : a.resolver.check a.raw = .ok ())
      (answered : a.answer environment s.tree = .error (.blocked key)) (other : key ≠ a.target)
      (absent : key ∉ s.openKeys rest) :
      Concludes environment s rest a (.failed (.unknownIdentifier (s.tree.displayKey key)))
        (s.fail a (.unknownIdentifier (s.tree.displayKey key)))
  | executed {value : Value} {deterministic : Bool} {entry : Entry} (checked : a.resolver.check a.raw = .ok ())
      (answered : a.answer environment s.tree = .ok (value,deterministic))
      (found : (s.tree.node a.target.node).entries.find? a.target.name = some entry) (blank : entry.value = none) :
      Concludes environment s rest a (.executed ⟨deterministic,a.rejection value⟩)
        ({ s with tree := s.tree.put a.target entry value deterministic }.succeed a
          ⟨deterministic,a.rejection value⟩)

-- A run over what is parked and the attributes to come, with the attempts that ended on the
-- way. What is parked is taken up again once nothing is to come.
inductive Runs (environment : Environment) : Resolution → List Assignment → List Attempt → Resolution → Prop where
  | empty {s : Resolution} (none : s.pending = []) : Runs environment s [] [] s
  | concluded {s s' last : Resolution} {a : Assignment} {rest : List Assignment} {ending : Ending}
      {later : List Attempt} (step : Concludes environment s rest a ending s')
      (next : Runs environment s' rest later last) :
      Runs environment s (a :: rest) (⟨a,ending⟩ :: later) last
  | parked {s last : Resolution} {a : Assignment} {rest : List Assignment} {key : Key} {later : List Attempt}
      (checked : a.resolver.check a.raw = .ok ())
      (answered : a.answer environment s.tree = .error (.blocked key))
      (next : Runs environment { s with pending := s.pending ++ [⟨a,[key]⟩] } rest later last) :
      Runs environment s (a :: rest) later last
  | taken {s last : Resolution} {p : Parked} {others : List Parked} {later : List Attempt}
      (first : Parked.takeReady? (Parked.settled s.pending) = some (p,others))
      (next : Runs environment { s with pending := others } [p.assignment] later last) :
      Runs environment s [] later last
  | abandoned {s : Resolution} (some : s.pending ≠ [])
      (stuck : Parked.takeReady? (Parked.settled s.pending) = none) :
      Runs environment s [] (s.pending.map fun p => ⟨p.assignment,.abandoned⟩)
        (s.abandon (Parked.settled s.pending))

section
variable {environment : Environment} {s : Resolution}

theorem load_concludes {a : Assignment} (ready : a.Awaited s.tree) (rest : List Assignment) :
    (∃ ending, s.loadEnding? environment a = some ending ∧
      Concludes environment s rest a ending (s.load environment a)) ∨
    ∃ key, a.resolver.check a.raw = .ok () ∧ a.answer environment s.tree = .error (.blocked key) ∧
      s.loadEnding? environment a = none ∧
      s.load environment a = { s with pending := s.pending ++ [⟨a,[key]⟩] } := by
  obtain ⟨entry,found,blank⟩ := ready.entry
  have execute := a.execute_answer environment found
  unfold loadEnding? load
  rw [Tree.declare_known found,Assignment.asked_self ready.builtin]
  dsimp only
  rw [execute]
  cases checked : a.resolver.check a.raw with
  | error error => exact .inl ⟨_,rfl,.malformed checked⟩
  | ok passed =>
    cases answered : a.answer environment s.tree with
    | ok content => exact .inl ⟨_,rfl,.executed checked answered found blank⟩
    | error error =>
      cases error with
      | blocked key => exact .inr ⟨key,rfl,rfl,rfl,rfl⟩
      | unknownIdentifier | malformed | lookup | conversion | store | validation =>
        exact .inl ⟨_,rfl,.failed checked answered (fun key impossible => by cases impossible)⟩

theorem attempt_concludes {p : Parked} (others : List Parked) (ready : p.assignment.Awaited s.tree)
    (checked : p.assignment.resolver.check p.assignment.raw = .ok ()) (unblocked : p.blockers = []) :
    (∃ ending, s.attemptEnding? environment p others = some ending ∧
      Concludes environment { s with pending := others } [] p.assignment ending (s.attempt environment p others)) ∨
    ∃ key, p.assignment.answer environment s.tree = .error (.blocked key) ∧
      s.attemptEnding? environment p others = none ∧
      s.attempt environment p others = { s with pending := others ++ [⟨p.assignment,[key]⟩] } := by
  obtain ⟨entry,found,blank⟩ := ready.entry
  have execute := p.assignment.execute_answer environment found
  unfold attemptEnding? attempt
  dsimp only
  rw [Assignment.asked_self ready.builtin,execute]
  cases answered : p.assignment.answer environment s.tree with
  | ok content => exact .inl ⟨_,rfl,.executed checked answered found blank⟩
  | error error =>
    cases error with
    | blocked key =>
      dsimp only
      by_cases waits : key ∈ Parked.targets (p :: others)
      · rw [if_pos waits,if_pos waits,unblocked]
        exact .inr ⟨key,rfl,rfl,rfl⟩
      · rw [if_neg waits,if_neg waits]
        refine .inl ⟨_,rfl,.lost checked answered (List.ne_of_not_mem_cons waits) ?_⟩
        change key ∉ Parked.targets others ++ []
        rw [List.append_nil]
        exact List.not_mem_of_not_mem_cons waits
    | unknownIdentifier | malformed | lookup | conversion | store | validation =>
      exact .inl ⟨_,rfl,.failed checked answered (fun key impossible => by cases impossible)⟩

end
end DeferredAttributes
