import Mathlib.Order.Bounds.Basic
import DeferredAttributes.Proofs.Resolution.Unique
import DeferredAttributes.Proofs.Resolver.Reads

-- What is reported as a circle is one, and is all of it: the largest set of attributes each of
-- which waits for another of the set or for itself.
namespace DeferredAttributes
open Resolution

structure Assignment.StuckOn (environment : Environment) (t : Tree) (a : Assignment) (key : Key) : Prop where
  checked : a.resolver.check a.raw = .ok ()
  blocked : a.execute environment t = .error (.blocked key)

-- Attributes that get nothing because of each other.
def Knotted (environment : Environment) (t : Tree) (assignments : List Assignment) (knot : Set Assignment) : Prop :=
  ∀ a ∈ knot, a ∈ assignments ∧ ∃ b ∈ knot, a.StuckOn environment t b.target

section
variable {environment : Environment} {t : Tree} {a : Assignment} {key : Key}

theorem Assignment.execute_error {entry : Entry} {error : ResolveError} (found : t.slot? a.target = some entry) :
    a.execute environment t = .error error ↔ a.answer environment t = .error error := by
  rw [execute_answer environment found]
  rcases a.answer environment t with failed | ⟨value,deterministic⟩ <;> simp

theorem Assignment.stuckOn_iff (declared : (t.slot? a.target).isSome = true) :
    a.StuckOn environment t key ↔
      a.resolver.check a.raw = .ok () ∧ a.answer environment t = .error (.blocked key) := by
  obtain ⟨entry,found⟩ := Option.isSome_iff_exists.mp declared
  rw [← execute_error found]
  exact ⟨fun stuck => ⟨stuck.checked,stuck.blocked⟩,fun both => ⟨both.1,both.2⟩⟩

end

section
variable {environment : Environment} {t : Tree} {last : Resolution} {assignments : List Assignment}
  {history : List Attempt} {a : Assignment} (first : Open environment (.start t) assignments)
  (run : Runs environment (.start t) assignments history last)
include run

theorem Runs.tried : (history.map Attempt.assignment).Perm assignments := run.once

include first

theorem Runs.declared (member : a ∈ assignments) : (last.tree.slot? a.target).isSome = true := by
  rw [run.grows.shape.slot_isSome]
  exact (first.ready a member).declared

theorem Runs.given_stuck (given : a ∈ abandonedOf history) :
    a ∈ assignments ∧ last.tree.stored? a.target = none ∧
      ∃ b ∈ abandonedOf history, a.StuckOn environment last.tree b.target ∧
        a.waitsFor environment last.tree = [b.target] ∧
        (a.reads last.tree).find? (fun key => (last.tree.stored? key).isNone) = some b.target := by
  have ended := mem_abandonedOf.mp given
  have member : a ∈ assignments := run.tried.mem_iff.mp (List.mem_map.mpr ⟨_,ended,rfl⟩)
  obtain ⟨later,_,upheld⟩ := (run.truthful first).mem ended
  cases upheld with
  | abandoned checked answered among _ blank =>
    obtain ⟨b,other,rfl⟩ := List.mem_map.mp among
    exact ⟨member,blank,b,other,(Assignment.stuckOn_iff (run.declared first member)).mpr ⟨checked,answered⟩,
      Assignment.waitsFor_blocked answered,
      Assignment.answer_blocked (first.ready a member).builtin checked answered⟩

theorem Runs.knot_given {knot : Set Assignment} (knotted : Knotted environment last.tree assignments knot)
    (member : a ∈ knot) : a ∈ abandonedOf history := by
  classical
  have own : ∀ b ∈ knot, b.target ∈ (assignments.filter (· ∈ knot)).map Assignment.target := fun b inside =>
    List.mem_map.mpr ⟨b,by simpa using ⟨(knotted b inside).1,inside⟩,rfl⟩
  have only : ∀ b ∈ assignments, b.target ∈ (assignments.filter (· ∈ knot)).map Assignment.target → b ∈ knot := by
    intro b present among
    obtain ⟨c,inside,same⟩ := List.mem_map.mp among
    obtain ⟨known,inside⟩ := List.mem_filter.mp inside
    have equal : c = b := List.inj_on_of_nodup_map first.distinct known present same
    rw [← equal]
    exact of_decide_eq_true inside
  have support : Supported environment last.tree history ((assignments.filter (· ∈ knot)).map Assignment.target) := by
    intro e present among
    have known := run.tried.mem_iff.mp (List.mem_map.mpr ⟨e,present,rfl⟩)
    obtain ⟨_,b,inside,stuck⟩ := knotted _ (only _ known among)
    obtain ⟨checked,answered⟩ := (Assignment.stuckOn_iff (run.declared first known)).mp stuck
    refine ⟨checked,b.target,own b inside,answered,?_⟩
    obtain ⟨e',present',rfl⟩ := List.mem_map.mp (run.tried.mem_iff.mpr (knotted b inside).1)
    exact List.mem_map.mpr ⟨e',present',rfl⟩
  obtain ⟨e,present,rfl⟩ := List.mem_map.mp (run.tried.mem_iff.mpr (knotted a member).1)
  obtain ⟨before,later,place⟩ := List.append_of_mem present
  have ending := (run.truthful first).supported support place (own _ member)
  apply mem_abandonedOf.mpr
  rw [← ending]
  exact present

theorem Runs.circle_greatest :
    IsGreatest {knot | Knotted environment last.tree assignments knot} {a | a ∈ abandonedOf history} := by
  constructor
  · intro a given
    obtain ⟨member,_,b,other,stuck,_⟩ := run.given_stuck first given
    exact ⟨member,b,other,stuck⟩
  · intro knot knotted a member
    exact run.knot_given first knotted member

end

-- What a load reports as a circle is the largest knot over the tree that it leaves, each
-- attribute once, next to the leftmost key without a value that its text reads.
theorem loaded_circle (environment : Environment) {t : Tree} {assignments : List Assignment}
    (awaited : ∀ a ∈ assignments, a.Awaited t) (distinct : (assignments.map Assignment.target).Nodup) :
    let report := (loaded environment t assignments).1
    let last := (loaded environment t assignments).2.tree
    ∃ (circle : List Assignment) (blocker : Assignment → Key),
      circle.Nodup ∧ IsGreatest {knot | Knotted environment last assignments knot} {a | a ∈ circle} ∧
      report.filterMap Issue.circle? = (if circle.isEmpty then [] else
        [circle.map fun a => (last.displayKey a.target,[last.displayKey (blocker a)])]) ∧
      ∀ a ∈ circle, last.stored? a.target = none ∧ a.StuckOn environment last (blocker a) ∧
        (a.reads last).find? (fun key => (last.stored? key).isNone) = some (blocker a) := by
  intro report last
  have first := awaited_open environment awaited distinct
  obtain ⟨ended,run,issues,tree,_⟩ := first.loaded environment
  rw [show report = ended.issues from issues,show last = ended.tree from tree]
  generalize history environment (.start t) assignments = history at run
  have blockers : ∀ a, ∃ key, a ∈ abandonedOf history → a.waitsFor environment ended.tree = [key] ∧
      ended.tree.stored? a.target = none ∧ a.StuckOn environment ended.tree key ∧
      (a.reads ended.tree).find? (fun key => (ended.tree.stored? key).isNone) = some key := by
    intro a
    by_cases given : a ∈ abandonedOf history
    · obtain ⟨_,blank,b,_,stuck,waits,leftmost⟩ := run.given_stuck first given
      exact ⟨b.target,fun _ => ⟨waits,blank,stuck,leftmost⟩⟩
    · exact ⟨a.target,fun impossible => absurd impossible given⟩
  obtain ⟨blocker,facts⟩ := Classical.axiomOfChoice blockers
  refine ⟨abandonedOf history,blocker,?_,run.circle_greatest first,?_,fun a given => (facts a given).2⟩
  · have assignments : (history.map Attempt.assignment).Nodup := run.tried.nodup_iff.mpr distinct.of_map
    exact (abandonedOf_sublist history).nodup assignments
  · rw [run.circles first]
    have alike : (abandonedOf history).map (fun a =>
          (ended.tree.displayKey a.target,(a.waitsFor environment ended.tree).map ended.tree.displayKey)) =
        (abandonedOf history).map fun a => (ended.tree.displayKey a.target,[ended.tree.displayKey (blocker a)]) := by
      apply List.map_congr_left
      intro a given
      rw [(facts a given).1]
      rfl
    rw [← alike]
    cases abandonedOf history <;> rfl

def whirl : List Assignment :=
  [("here","@there + 1"),("there","@here"),("beside","2 * @here"),("label","1"),("after","@label")].map fun entry =>
    ⟨⟨0,entry.1⟩,entry.2,.expression .decimal,none,false⟩

def whirlTree : Tree :=
  whirl.foldl (fun t a => t.declare 0 a.target.name a.resolver.type) ((Tree.new .blank).declare 0 "label" .string)

theorem loaded_circle_whirl :
    (∀ a ∈ whirl, a.Awaited whirlTree) ∧ (whirl.map Assignment.target).Nodup ∧
      ∃ circle : List Assignment, circle.Nodup ∧
        IsGreatest {knot | Knotted .empty (loaded .empty whirlTree whirl).2.tree whirl knot} {a | a ∈ circle} := by
  have awaited : ∀ a ∈ whirl, a.Awaited whirlTree := by
    intro a member
    simp only [whirl,List.map_cons,List.map_nil,List.mem_cons,List.not_mem_nil,or_false] at member
    rcases member with rfl | rfl | rfl | rfl | rfl <;> exact ⟨rfl,by decide,rfl⟩
  have distinct : (whirl.map Assignment.target).Nodup := by decide
  obtain ⟨circle,_,once,greatest,_⟩ := loaded_circle .empty awaited distinct
  exact ⟨awaited,distinct,circle,once,greatest⟩

end DeferredAttributes
