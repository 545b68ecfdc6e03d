import DeferredAttributes.Proofs.Resolution.Calls
import DeferredAttributes.Proofs.Resolution.Passes
import DeferredAttributes.Proofs.Tree.Arena
import DeferredAttributes.Proofs.Tree.Versions

-- What holds of a tree after any calls, on whatever attributes with whatever resolvers.
namespace DeferredAttributes
open Resolution

def writesOf (attempts : List Attempt) : List Key := (attempts.filter Attempt.stores).map Attempt.target

namespace Call

def placed (t : Tree) : Call → Bool
  | .addChild parent _ _ => parent < t.nodes.size
  | _ => true

def writes (s : Resolution) : Call → List Key
  | .write key value deterministic =>
    match s.tree.write key value deterministic with
    | .ok _ => [key]
    | .error _ => []
  | call => writesOf (call.made s)

def allPlaced : Resolution → List Call → Bool
  | _, [] => true
  | s, call :: rest => call.placed s.tree && allPlaced (call.perform s) rest

def allWrites : Resolution → List Call → List Key
  | _, [] => []
  | s, call :: rest => call.writes s ++ allWrites (call.perform s) rest

end Call

-- Calls on one tree, one after the other, with the keys that they write. Each call goes through
-- any state of what else there is: the calls may be those of several schedulers.
inductive Course : Tree → List Key → Tree → Prop where
  | none {t : Tree} : Course t [] t
  | call (s : Resolution) (call : Call) {later : List Key} {last : Tree} (placed : call.placed s.tree = true)
      (next : Course (call.perform s).tree later last) : Course s.tree (call.writes s ++ later) last

section
variable {environment : Environment} {s s' last : Resolution} {a : Assignment} {t : Tree}

theorem writesOf_append (one two : List Attempt) : writesOf (one ++ two) = writesOf one ++ writesOf two := by
  simp [writesOf]

theorem Assignment.execute_evolves {done : Executed} (executed : a.execute environment s.tree = .ok (done,t)) :
    s.tree.Evolves [a.target] t := by
  unfold execute at executed
  split at executed
  · cases executed
  · dsimp only at executed
    split at executed
    · cases executed
    · rename_i written
      cases executed
      exact .written written

theorem Tries.evolves {ending : Option Ending} (tried : Tries environment s a ending s') :
    s.tree.Evolves (writesOf (ended a ending)) s'.tree := by
  cases tried with
  | failed error => exact .flagged _ _
  | @executed done t executed =>
    have stored : writesOf (ended a (some (.executed done))) = [a.target] ++ [] := rfl
    rw [stored,succeed_tree]
    refine .trans (Assignment.execute_evolves executed) ?_
    split
    · exact .flagged _ _
    · exact .same
  | waits pending => exact .same

theorem Drains.evolves {attempts : List Attempt} (drains : Drains environment s attempts last) :
    s.tree.Evolves (writesOf attempts) last.tree := by
  induction drains with
  | idle => exact .same
  | @abandoned s pending =>
    have nothing : writesOf (pending.map fun p => ⟨p.assignment,.abandoned⟩) = [] := by
      simp [writesOf,Attempt.stores]
    rw [nothing]
    exact s.abandon_keeps (s.tree.Evolves []) (fun t id before => before.trans (.flagged id false)) pending .same
  | round tried next ih =>
    rw [writesOf_append]
    exact tried.evolves.trans ih

theorem Resolution.Refreshing.step_evolves (root : Option Nat) (r : Refreshing) (a : Assignment) :
    r.state.tree.Evolves (writesOf (r.attempt? environment root a).toList) (r.step environment root a).state.tree := by
  unfold step attempt?
  dsimp only
  split
  · exact .same
  · cases executed : a.execute environment r.state.tree with
    | error error => exact .same
    | ok result =>
      obtain ⟨⟨deterministic,rejected⟩,t⟩ := result
      cases rejected <;> exact Assignment.execute_evolves executed

theorem Resolution.Refreshing.fold_evolves (environment : Environment) (root : Option Nat) (r : Refreshing) (assignments : List Assignment) :
    r.state.tree.Evolves (writesOf (history environment root r assignments))
      (assignments.foldl (step environment root) r).state.tree := by
  induction assignments generalizing r with
  | nil => exact .same
  | cons a rest ih =>
    rw [history,writesOf_append]
    exact (step_evolves root r a).trans (ih _)

theorem Tree.Evolves.flags (nodes : List Nat) (flag : Nat → Bool) (t : Tree) :
    t.Evolves [] (nodes.foldl (fun t node => t.setValid node (flag node)) t) := by
  induction nodes generalizing t with
  | nil => exact .same
  | cons node rest ih => exact .trans (.flagged node (flag node)) (ih _)

theorem refresh_evolves (environment : Environment) (root : Option Nat) (s : Resolution) :
    s.tree.Evolves (writesOf (s.refreshHistory environment root)) (s.refresh environment root).2.tree := by
  rw [← List.append_nil (writesOf _)]
  exact .trans (Refreshing.fold_evolves environment root ⟨{ s with issues := [] },[],[]⟩ s.retained) (.flags _ _ _)

end

theorem Call.evolves {s : Resolution} {call : Call} (placed : call.placed s.tree = true) :
    s.tree.Evolves (call.writes s) (call.perform s).tree := by
  cases call with
  | addChild parent name origin =>
    cases added : s.tree.addChild parent name origin with
    | error error => simpa [perform,added] using .same
    | ok grown => simpa [perform,added] using .child (by simpa [Call.placed] using placed) added
  | declare node name type => exact .declared ..
  | write key value deterministic =>
    cases written : s.tree.write key value deterministic with
    | error error => simpa [perform,writes,written] using .same
    | ok t => simpa [perform,writes,written] using .written written
  | load environment a => exact .trans (.declared ..) (load_tries environment s a).evolves
  | finish environment => exact (drain_drains environment s).evolves
  | refresh environment root => exact refresh_evolves environment root s

theorem Course.evolves {t t' : Tree} {writes : List Key} (course : Course t writes t') : t.Evolves writes t' := by
  induction course with
  | none => exact .same
  | call s call placed next ih => exact (Call.evolves placed).trans ih

theorem Call.course {s : Resolution} {calls : List Call} (placed : allPlaced s calls = true) :
    Course s.tree (allWrites s calls) (calls.foldl perform s).tree := by
  induction calls generalizing s with
  | nil => exact .none
  | cons call rest ih =>
    obtain ⟨here,later⟩ := Bool.and_eq_true_iff.mp placed
    exact .call s call here (ih later)

section
variable (origin : Origin) {t t' : Tree} {writes more : List Key} (course : Course (.new origin) writes t)
  (onward : Course t more t')
include course onward

-- Every node but the root has an older parent, which knows it by its name, and siblings have
-- different names. Later calls leave every node where it is.
theorem course_arena : t.Arena ∧ t.Kept t' ∧
    (∀ i, i < t.nodes.size → (t.ancestors i).IsChain (fun child parent => (t.node child).parent = some parent) ∧
      (t.ancestors i).head? = some i ∧ (t.ancestors i).getLast? = some 0) ∧
    ((∀ i, t.isWithin i i = true) ∧
      (∀ i j k, t.isWithin i j = true → t.isWithin j k = true → t.isWithin i k = true) ∧
      (∀ i j, t.isWithin i j = true → t.isWithin j i = true → i = j) ∧
      ∀ i, i < t.nodes.size → t.isWithin i 0 = true) ∧
    ∀ i j k, (t.node i).parent = some k → (t.node j).parent = some k → (t.node i).name = (t.node j).name → i = j := by
  have arena : t.Arena := course.evolves.arena (.new origin)
  refine ⟨arena,onward.evolves.kept,?_,⟨t.isWithin_refl,?_,?_,?_⟩,?_⟩
  · exact fun i => arena.climbs
  · exact fun i j k => Tree.isWithin_trans
  · exact fun i j => Tree.isWithin_antisymm
  · exact fun i => arena.isWithin_root
  · exact fun i j k => arena.siblings

-- Values are of the declared types, and the stamps tell the writes, which the version counts.
-- What a tree refuses leaves everything as it is.
theorem course_versions :
    (∀ i, (t.node i).Versioned ∧ (t.node i).version = writes.countP (fun key => key.node = i) ∧
      (t.node i).Later (t'.node i) ∧ ∀ name entry value fields, (t.node i).entries.find? name = some entry →
        entry.value = some value → value ≠ .object fields) ∧
    (∀ s key value deterministic error, s.tree.write key value deterministic = .error error →
      Call.perform s (.write key value deterministic) = s) ∧
    ∀ s parent name origin error, s.tree.addChild parent name origin = .error error →
      Call.perform s (.addChild parent name origin) = s := by
  refine ⟨?_,?_,?_⟩
  · intro i
    have blank : (Tree.new origin).node i = .new "" none ((Tree.new origin).node i).origin := by
      cases i <;> rfl
    have valid : (t.node i).Versioned := by
      apply course.evolves.versioned
      rw [blank]
      exact .new ..
    have counted := course.evolves.version i
    have none : ((Tree.new origin).node i).version = 0 := by
      rw [blank]
      rfl
    refine ⟨valid,by omega,onward.evolves.later i,?_⟩
    exact fun name entry value fields found has => valid.plain found has fields
  · intro s key value deterministic error refused
    simp [Call.perform,refused]
  · intro s parent name origin error refused
    simp [Call.perform,refused]

end

def tower : List Call :=
  [.addChild 0 "tower" .blank,.addChild 1 "lamp" .blank,.load .empty ⟨⟨2,"power"⟩,"5",.expression .decimal,none,false⟩,
    .addChild 1 "lamp" .blank,.write ⟨2,"power"⟩ (.decimal 4) true]

def furnished : List Call :=
  [.declare 2 "height" .decimal,.load .empty ⟨⟨2,"power"⟩,"6",.expression .decimal,none,false⟩,.addChild 2 "lens" .blank]

theorem tower_course :
    Course (.new .blank) [⟨2,"power"⟩,⟨2,"power"⟩] (Call.session .blank tower).tree ∧
      Course (Call.session .blank tower).tree [⟨2,"power"⟩] (furnished.foldl Call.perform (Call.session .blank tower)).tree := by
  have first : Call.allWrites (.start (.new .blank)) tower = [⟨2,"power"⟩,⟨2,"power"⟩] := by decide +kernel
  have second : Call.allWrites (Call.session .blank tower) furnished = [⟨2,"power"⟩] := by decide +kernel
  rw [← first,← second]
  exact ⟨Call.course (s := .start (.new .blank)) (by decide +kernel),Call.course (by decide +kernel)⟩

theorem course_arena_tower :
    let t := (Call.session .blank tower).tree
    t.Arena ∧ t.Kept (furnished.foldl Call.perform (Call.session .blank tower)).tree ∧
      (t.ancestors 2).getLast? = some 0 := by
  obtain ⟨course,onward⟩ := tower_course
  obtain ⟨arena,kept,climbs,_⟩ := course_arena .blank course onward
  exact ⟨arena,kept,(climbs 2 (by decide +kernel)).2.2⟩

theorem course_versions_tower :
    let t := (Call.session .blank tower).tree
    (t.node 2).Versioned ∧ (t.node 2).version = 2 ∧
      (t.node 2).Later ((furnished.foldl Call.perform (Call.session .blank tower)).tree.node 2) := by
  obtain ⟨course,onward⟩ := tower_course
  obtain ⟨valid,version,later,_⟩ := (course_versions .blank course onward).1 2
  exact ⟨valid,version,later⟩

end DeferredAttributes
