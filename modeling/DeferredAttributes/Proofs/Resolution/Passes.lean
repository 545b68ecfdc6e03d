import DeferredAttributes.Proofs.Resolution.Session
import DeferredAttributes.Proofs.Resolver.Renewable

-- A pass over a list of attributes, in which each is tried once over what the ones before it
-- have left. A refresh is a pass over the retained attributes that it covers.
namespace DeferredAttributes
open Resolution

inductive Passes (environment : Environment) : Tree → List Assignment → List Attempt → Tree → Prop where
  | empty {t : Tree} : Passes environment t [] [] t
  | failed {t last : Tree} {a : Assignment} {rest : List Assignment} {error : ResolveError} {later : List Attempt}
      (answered : a.answer environment t = .error error) (next : Passes environment t rest later last) :
      Passes environment t (a :: rest) (⟨a,.failed error⟩ :: later) last
  | stored {t last : Tree} {a : Assignment} {rest : List Assignment} {entry : Entry} {value : Value}
      {deterministic : Bool} {later : List Attempt} (found : t.slot? a.target = some entry)
      (answered : a.answer environment t = .ok (value,deterministic))
      (next : Passes environment (t.put a.target entry value deterministic) rest later last) :
      Passes environment t (a :: rest) (⟨a,.executed ⟨deterministic,a.rejection value⟩⟩ :: later) last

-- Whether the attempt came to a value, which is stored even when it is turned down.
def Attempt.stores (e : Attempt) : Bool :=
  match e.ending with
  | .executed _ => true
  | .failed _ | .abandoned => false

theorem Assignment.execute_cases (environment : Environment) (t : Tree) (a : Assignment) :
    (∃ error, a.answer environment t = .error error ∧ a.execute environment t = .error error) ∨
    ∃ entry value deterministic, t.slot? a.target = some entry ∧
      a.answer environment t = .ok (value,deterministic) ∧
      a.execute environment t =
        .ok (⟨deterministic,a.rejection value⟩,t.put a.target entry value deterministic) := by
  cases found : t.slot? a.target with
  | some entry =>
    rw [a.execute_answer environment found]
    cases answered : a.answer environment t with
    | error error => exact .inl ⟨error,rfl,rfl⟩
    | ok content => exact .inr ⟨entry,content.1,content.2,rfl,rfl,rfl⟩
  | none =>
    have missing : (t.node a.target.node).entries.find? a.target.name = none := found
    left
    unfold execute answer
    rcases a.resolver.resolve a.raw ⟨t,a.target.node,environment⟩ false with ⟨error | value,read⟩
    · exact ⟨error,rfl,rfl⟩
    · simp [Tree.write,Tree.refusal?,found,missing]

namespace Passes
variable {environment : Environment} {t last : Tree} {assignments : List Assignment} {attempts : List Attempt}
  (pass : Passes environment t assignments attempts last)
include pass

theorem tried : attempts.map Attempt.assignment = assignments := by
  induction pass with
  | empty => rfl
  | failed answered next ih => exact congrArg _ ih
  | stored found answered next ih => exact congrArg _ ih

theorem shape : t.SameShape last := by
  induction pass with
  | empty => exact .refl _
  | failed answered next ih => exact ih
  | stored found answered next ih => exact (Tree.shape_put found ..).trans ih

theorem node {i : Nat} (elsewhere : ∀ a ∈ assignments, a.target.node ≠ i) : last.node i = t.node i := by
  induction pass with
  | empty => rfl
  | failed answered next ih => exact ih fun a member => elsewhere a (List.mem_cons_of_mem _ member)
  | stored found answered next ih =>
    rw [ih fun a member => elsewhere a (List.mem_cons_of_mem _ member)]
    exact Tree.node_put_other found (elsewhere _ List.mem_cons_self).symm ..

theorem slot {key : Key} (unwritten : ∀ e ∈ attempts, e.stores = true → e.target ≠ key) :
    last.slot? key = t.slot? key := by
  induction pass with
  | empty => rfl
  | failed answered next ih => exact ih fun e member => unwritten e (List.mem_cons_of_mem _ member)
  | stored found answered next ih =>
    rw [ih fun e member => unwritten e (List.mem_cons_of_mem _ member),Tree.slot_put found,if_neg]
    exact (unwritten _ List.mem_cons_self rfl).symm

theorem version (i : Nat) : (last.node i).version =
    (t.node i).version + attempts.countP fun e => e.stores && e.target.node = i := by
  induction pass with
  | empty => rfl
  | failed answered next ih => rw [ih,List.countP_cons_of_neg (by simp [Attempt.stores])]
  | @stored t last a rest entry value deterministic later found answered next ih =>
    rw [ih]
    by_cases here : a.target.node = i
    · subst here
      have written : ((t.put a.target entry value deterministic).node a.target.node).version =
          (t.node a.target.node).version + 1 := by rw [Tree.node_put_self found]
      rw [written,List.countP_cons_of_pos (by simp [Attempt.stores,Attempt.target])]
      omega
    · rw [Tree.node_put_other found (Ne.symm here),List.countP_cons_of_neg (by simp [Attempt.target,here])]

theorem revised (typed : t.Typed) (renewable : ∀ a ∈ assignments, a.Renewable t) : t.Revised last := by
  induction pass with
  | empty => exact .refl _
  | failed answered next ih => exact ih typed fun a member => renewable a (List.mem_cons_of_mem _ member)
  | stored found answered next ih =>
    have step := (renewable _ List.mem_cons_self).put found answered
    exact step.trans (ih (step.typed typed) fun b member =>
      (renewable b (List.mem_cons_of_mem _ member)).revised step typed)

theorem errors (typed : t.Typed) (renewable : ∀ a ∈ assignments, a.Renewable t) {e : Attempt} (member : e ∈ attempts)
    {error : ResolveError} (failed : e.ending = .failed error) : error.inRefresh = true := by
  induction pass with
  | empty => cases member
  | failed answered next ih =>
    rcases List.mem_cons.mp member with rfl | behind
    · cases failed
      rcases (renewable _ List.mem_cons_self).answer environment with ⟨value,answered',_⟩ | ⟨other,answered',known⟩
      · cases answered.symm.trans answered'
      · cases answered.symm.trans answered'
        exact known
    · exact ih typed (fun b among => renewable b (List.mem_cons_of_mem _ among)) behind
  | stored found answered next ih =>
    have step := (renewable _ List.mem_cons_self).put found answered
    rcases List.mem_cons.mp member with rfl | behind
    · cases failed
    · exact ih (step.typed typed) (fun b among =>
        (renewable b (List.mem_cons_of_mem _ among)).revised step typed) behind

end Passes

namespace Resolution
variable {environment : Environment} {root : Option Nat}

theorem Refreshing.uncovered (t : Tree) (root : Option Nat) (a : Assignment) :
    (root.any fun root => !t.isWithin a.target.node root) = !a.covered t root := by
  unfold Assignment.covered
  cases root <;> rfl

theorem Refreshing.step_passes (r : Refreshing) (a : Assignment) :
    (a.covered r.state.tree root = false ∧ r.attempt? environment root a = none ∧
      (r.step environment root a).state = r.state) ∨
    a.covered r.state.tree root = true ∧ ∃ e, r.attempt? environment root a = some e ∧
      (r.step environment root a).state.issues = r.state.issues ++ (e.issue? r.state.tree).toList ∧
      ∀ rest later last, Passes environment (r.step environment root a).state.tree rest later last →
        Passes environment r.state.tree (a :: rest) (e :: later) last := by
  unfold step attempt?
  dsimp only
  rw [uncovered]
  cases covers : a.covered r.state.tree root with
  | false => exact .inl ⟨rfl,rfl,rfl⟩
  | true =>
    right
    rw [Bool.not_true,if_neg Bool.false_ne_true,if_neg Bool.false_ne_true]
    rcases a.execute_cases environment r.state.tree with ⟨error,answered,executed⟩ |
      ⟨entry,value,deterministic,found,answered,executed⟩
    · rw [executed]
      exact ⟨rfl,_,rfl,rfl,fun rest later last next => .failed answered next⟩
    · have shape := Tree.shape_put found value deterministic
      rw [executed]
      refine ⟨rfl,_,rfl,?_⟩
      cases rejected : a.rejection value with
      | none => exact ⟨(List.append_nil _).symm,fun rest later last next => rejected ▸ .stored found answered next⟩
      | some reason =>
        refine ⟨?_,fun rest later last next => rejected ▸ .stored found answered next⟩
        dsimp only
        rw [Assignment.issue_shape shape]
        rfl

theorem Refreshing.fold_passes (environment : Environment) (root : Option Nat) (r : Refreshing)
    (assignments : List Assignment) :
    let done := assignments.foldl (step environment root) r
    Passes environment r.state.tree (assignments.filter (Assignment.covered r.state.tree root))
      (history environment root r assignments) done.state.tree ∧
    done.state.issues =
      r.state.issues ++ (history environment root r assignments).filterMap (Attempt.issue? r.state.tree) := by
  induction assignments generalizing r with
  | nil => exact ⟨.empty,(List.append_nil _).symm⟩
  | cons a rest ih =>
    obtain ⟨pass,issues⟩ := ih (r.step environment root a)
    rw [List.foldl_cons,history]
    rcases r.step_passes a with ⟨covers,idle,same⟩ | ⟨covers,e,tried,told,after⟩
    · rw [idle,List.filter_cons_of_neg (by simp [covers])]
      rw [same] at pass issues
      exact ⟨pass,issues⟩
    · have shape : r.state.tree.SameShape (r.step environment root a).state.tree := (after [] [] _ .empty).shape
      have covered : Assignment.covered (r.step environment root a).state.tree root =
          Assignment.covered r.state.tree root := funext fun b => shape.covered root b
      have issue : Attempt.issue? (r.step environment root a).state.tree = Attempt.issue? r.state.tree :=
        funext fun e => Attempt.issue_shape shape e
      rw [tried,List.filter_cons_of_pos covers]
      rw [covered] at pass
      refine ⟨after _ _ _ pass,?_⟩
      rw [issues,issue,told,List.append_assoc,Option.toList_some,List.singleton_append,List.filterMap_cons]
      cases e.issue? r.state.tree <;> rfl

theorem Refreshing.fold_kept (r : Refreshing) {assignments : List Assignment}
    (builtin : ∀ a ∈ assignments, a.resolver.builtin = true) :
    (assignments.foldl (step environment root) r).kept = r.kept ++ assignments := by
  induction assignments generalizing r with
  | nil => exact (List.append_nil _).symm
  | cons a rest ih =>
    have kept : (r.step environment root a).kept = r.kept ++ [a] := by
      unfold step
      dsimp only
      split
      · rfl
      · rw [Assignment.asked_self (builtin a List.mem_cons_self)]
    rw [List.foldl_cons,ih _ fun b member => builtin b (List.mem_cons_of_mem _ member),kept,List.append_assoc]
    rfl

end Resolution

theorem Tree.Reflagged.setValids (nodes : List Nat) (flag : Nat → Bool) (t : Tree) :
    t.Reflagged (nodes.foldl (fun t node => t.setValid node (flag node)) t) := by
  refine ⟨(shape_setValids nodes flag t).size,?_⟩
  intro i
  induction nodes generalizing t with
  | nil => rfl
  | cons first rest ih =>
    have here : (t.setValid first (flag first)).node i =
        { t.node i with valid := ((t.setValid first (flag first)).node i).valid } := by
      unfold setValid
      rw [node_modify]
      split <;> rfl
    have later := ih (t.setValid first (flag first))
    rw [here] at later
    exact later

def Resolution.covered (root : Option Nat) (s : Resolution) : List Assignment :=
  s.retained.filter (Assignment.covered s.tree root)

theorem refresh_passes (environment : Environment) (root : Option Nat) (s : Resolution) :
    ∃ last, Passes environment s.tree (s.covered root) (s.refreshHistory environment root) last ∧
      last.Reflagged (s.refresh environment root).2.tree ∧
      (s.refresh environment root).1 = (s.refreshHistory environment root).filterMap (Attempt.issue? s.tree) := by
  obtain ⟨pass,issues⟩ := Refreshing.fold_passes environment root ⟨{ s with issues := [] },[],[]⟩ s.retained
  exact ⟨_,pass,.setValids _ _ _,issues⟩

end DeferredAttributes
