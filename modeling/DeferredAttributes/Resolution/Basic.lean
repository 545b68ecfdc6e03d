import DeferredAttributes.Resolution.Parked

-- Gives every attribute of a tree its value, whatever the order in which they come in. A load
-- parks what reads a key without a value, and `finish` runs what was parked.
namespace DeferredAttributes

-- Parked attempts are oldest first, retained assignments in the order of their first success.
-- What is broken is invalid for another reason than a failed attribute.
structure Resolution where
  tree : Tree
  pending : List Parked
  retained : List Assignment
  failures : List Key
  broken : List Nat
  issues : Report

namespace Resolution

def start (t : Tree) : Resolution := ⟨t,[],[],[],[],[]⟩

def fail (s : Resolution) (a : Assignment) (error : ResolveError) : Resolution :=
  { s with
    tree := s.tree.setValid a.target.node false
    failures := addNew s.failures a.target
    issues := s.issues ++ [a.issue s.tree error] }

def succeed (s : Resolution) (a : Assignment) (done : Executed) : Resolution :=
  let s := match done.rejected with
    | some reason => s.fail a (.validation reason)
    | none => s
  if done.deterministic then s else { s with retained := s.retained ++ [a] }

def load (environment : Environment) (s : Resolution) (a : Assignment) : Resolution :=
  let s := { s with tree := s.tree.declare a.target.node a.target.name a.resolver.type }
  match a.resolver.check a.raw with
  | .error error => s.fail a error
  | .ok () =>
    match a.execute environment s.tree with
    | .ok (done,t) => { s with tree := t }.succeed a.asked done
    | .error (.blocked key) => { s with pending := s.pending ++ [⟨a.asked,[key]⟩] }
    | .error error => s.fail a error

-- Where it meets a key that something parked will still give a value, it goes back to the end.
def attempt (environment : Environment) (s : Resolution) (p : Parked) (others : List Parked) : Resolution :=
  let a := p.assignment
  let s' := { s with pending := others }
  match a.execute environment s.tree with
  | .ok (done,t) => { s' with tree := t }.succeed a.asked done
  | .error (.blocked key) =>
    if key ∈ Parked.targets (p :: others) then
      { s with pending := others ++ [⟨a.asked,addNew p.blockers key⟩] }
    else s'.fail a (.unknownIdentifier (s.tree.displayKey key))
  | .error error => s'.fail a error

def abandon (s : Resolution) (pending : List Parked) : Resolution :=
  let waiting := pending.map fun p =>
    (s.tree.displayKey p.assignment.target,p.blockers.map s.tree.displayKey)
  { s with
    tree := pending.foldl (fun t p => t.setValid p.assignment.target.node false) s.tree
    pending := []
    failures := pending.foldl (fun keys p => addNew keys p.assignment.target) s.failures
    issues := s.issues ++ [.circularDependency waiting] }

theorem succeed_pending (s : Resolution) (a : Assignment) (done : Executed) :
    (s.succeed a done).pending = s.pending := by
  unfold succeed
  cases done.rejected <;> cases done.deterministic <;> rfl

theorem attempt_pending (environment : Environment) (s : Resolution) (p : Parked) (others : List Parked) :
    (s.attempt environment p others).pending = others ∨
    ∃ key ∈ Parked.targets (p :: others),
      (s.attempt environment p others).pending = others ++ [⟨p.assignment.asked,addNew p.blockers key⟩] := by
  unfold attempt
  dsimp only
  split
  · exact .inl (succeed_pending ..)
  · split
    · rename_i key _ parked
      exact .inr ⟨key,parked,rfl⟩
    · exact .inl rfl
  · exact .inl rfl

-- Running a ready attempt leaves fewer attempts, or as many with fewer of them ready.
theorem attempt_decreases (environment : Environment) (s : Resolution) {p : Parked} {others : List Parked}
    (taken : Parked.takeReady? (Parked.settled s.pending) = some (p,others)) :
    Prod.Lex (· < ·) (· < ·)
      ((s.attempt environment p others).pending.length,Parked.readyCount (s.attempt environment p others).pending)
      (s.pending.length,Parked.readyCount s.pending) := by
  have length : s.pending.length = others.length + 1 := by
    have same := (Parked.takeReady_perm taken).1.length_eq
    simpa [Parked.settled] using same
  rcases attempt_pending environment s p others with ended | ⟨key,parked,again⟩
  · rw [ended]
    exact .left _ _ (by omega)
  · rw [again]
    simp only [List.length_append,List.length_cons,List.length_nil,length]
    exact .right _ (Parked.readyCount_again taken rfl parked)

def drain (environment : Environment) (s : Resolution) : Resolution :=
  if s.pending.isEmpty then s else
  match _ : Parked.takeReady? (Parked.settled s.pending) with
  | none => s.abandon (Parked.settled s.pending)
  | some (p,others) => (s.attempt environment p others).drain environment
termination_by (s.pending.length,Parked.readyCount s.pending)
decreasing_by exact attempt_decreases environment s ‹_›

def failing (s : Resolution) (node : Nat) : Bool := s.failures.any fun key => key.node = node

-- Notes the nodes that something else than a failed attribute made invalid.
def finish (environment : Environment) (s : Resolution) : Report × Resolution :=
  let s := s.drain environment
  let broken := (List.range s.tree.nodes.size).filter fun i => !(s.tree.node i).valid && !s.failing i
  (s.issues,{ s with broken := broken.foldl addNew s.broken, issues := [] })

end Resolution
end DeferredAttributes
