import DeferredAttributes.Resolution.Basic

-- Computing again what may have changed since the load.
namespace DeferredAttributes.Resolution

structure Refreshing where
  state : Resolution
  touched : List Nat
  kept : List Assignment

def Refreshing.step (environment : Environment) (root : Option Nat) (r : Refreshing) (a : Assignment) : Refreshing :=
  let s := r.state
  if root.any fun root => !s.tree.isWithin a.target.node root then { r with kept := r.kept ++ [a] } else
  let failed (t : Tree) (error : ResolveError) : Resolution :=
    { s with tree := t, failures := addNew s.failures a.target, issues := s.issues ++ [a.issue t error] }
  { state := match a.execute environment s.tree with
      | .ok (⟨_,none⟩,t) => { s with tree := t, failures := s.failures.filter (· ≠ a.target) }
      | .ok (⟨_,some reason⟩,t) => failed t (.validation reason)
      | .error error => failed s.tree error
    touched := addNew r.touched a.target.node
    kept := r.kept ++ [a.asked] }

-- The order of first success is one of dependency. A node that the refresh came to is valid
-- when none of its attributes fails and nothing else broke it.
def refresh (environment : Environment) (root : Option Nat) (s : Resolution) : Report × Resolution :=
  let done := s.retained.foldl (Refreshing.step environment root) ⟨{ s with issues := [] },[],[]⟩
  let r := done.state
  let tree := done.touched.foldl (fun t node =>
    t.setValid node (!r.failing node && !s.broken.contains node)) r.tree
  (r.issues,{ r with tree := tree, retained := done.kept, issues := s.issues })

def pendingOf (s : Resolution) (node : Nat) : List Parked :=
  s.pending.filter fun p => p.assignment.target.node = node

end DeferredAttributes.Resolution
