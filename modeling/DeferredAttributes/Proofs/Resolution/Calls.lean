import DeferredAttributes.Proofs.Resolution.Session

-- What a call does to the state, and which attempts end in it. As in the account of the rounds,
-- no promise is made about what resolvers answer.
namespace DeferredAttributes
open Resolution

-- How a try of an attribute leaves the state. One that has to wait changes only what is parked.
inductive Tries (environment : Environment) (s : Resolution) (a : Assignment) : Option Ending → Resolution → Prop where
  | failed (error : ResolveError) : Tries environment s a (some (.failed error)) (s.fail a error)
  | executed {done : Executed} {t : Tree} (executed : a.execute environment s.tree = .ok (done,t)) :
      Tries environment s a (some (.executed done)) ({ s with tree := t }.succeed a.asked done)
  | waits (pending : List Parked) : Tries environment s a none { s with pending := pending }

inductive Drains (environment : Environment) : Resolution → List Attempt → Resolution → Prop where
  | idle {s : Resolution} : Drains environment s [] s
  | abandoned {s : Resolution} (pending : List Parked) :
      Drains environment s (pending.map fun p => ⟨p.assignment,.abandoned⟩) (s.abandon pending)
  | round {s s' last : Resolution} {a : Assignment} {others : List Parked} {ending : Option Ending}
      {later : List Attempt} (tried : Tries environment { s with pending := others } a ending s')
      (next : Drains environment s' later last) : Drains environment s (ended a ending ++ later) last

theorem load_tries (environment : Environment) (s : Resolution) (a : Assignment) :
    Tries environment { s with tree := s.tree.declare a.target.node a.target.name a.resolver.type } a
      (s.loadEnding? environment a) (s.load environment a) := by
  unfold loadEnding? load
  dsimp only
  generalize s.tree.declare a.target.node a.target.name a.resolver.type = t
  cases a.resolver.check a.raw with
  | error error => exact .failed error
  | ok passed =>
    dsimp only
    cases executed : a.execute environment t with
    | ok result => exact .executed executed
    | error error =>
      cases error with
      | blocked key => exact .waits _
      | unknownIdentifier | malformed | lookup | conversion | store | validation => exact .failed _

theorem attempt_tries (environment : Environment) (s : Resolution) (p : Parked) (others : List Parked) :
    Tries environment { s with pending := others } p.assignment (s.attemptEnding? environment p others)
      (s.attempt environment p others) := by
  unfold attemptEnding? attempt
  dsimp only
  cases executed : p.assignment.execute environment s.tree with
  | ok result => exact .executed (s := { s with pending := others }) executed
  | error error =>
    cases error with
    | blocked key =>
      dsimp only
      by_cases parked : key ∈ Parked.targets (p :: others)
      · rw [if_pos parked,if_pos parked]
        exact .waits (s := { s with pending := others }) _
      · rw [if_neg parked,if_neg parked]
        exact .failed _
    | unknownIdentifier | malformed | lookup | conversion | store | validation => exact .failed _

theorem drain_drains (environment : Environment) (s : Resolution) :
    Drains environment s (s.drainHistory environment) (s.drain environment) := by
  by_cases none : s.pending = []
  · obtain ⟨drained,history⟩ := drain_empty environment none
    rw [drained,history]
    exact .idle
  · cases first : Parked.takeReady? (Parked.settled s.pending) with
    | none =>
      obtain ⟨drained,history⟩ := drain_stuck environment none first
      have given : s.pending.map (fun p => (⟨p.assignment,.abandoned⟩ : Attempt)) =
          (Parked.settled s.pending).map fun p => ⟨p.assignment,.abandoned⟩ := by
        simp [Parked.settled,Parked.settle]
      rw [drained,history,given]
      exact .abandoned _
    | some pair =>
      obtain ⟨p,others⟩ := pair
      obtain ⟨drained,history⟩ := drain_taken environment first
      rw [drained,history]
      exact .round (attempt_tries environment s p others) (drain_drains environment _)
termination_by (s.pending.length,Parked.readyCount s.pending)
decreasing_by exact attempt_decreases environment s ‹_›

def Call.made (s : Resolution) : Call → List Attempt
  | .addChild .. | .declare .. | .write .. => []
  | .load environment a => ended a (s.loadEnding? environment a)
  | .finish environment => s.drainHistory environment
  | .refresh environment root => s.refreshHistory environment root

end DeferredAttributes
