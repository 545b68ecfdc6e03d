import DeferredAttributes.Proofs.Resolution.Refreshing
import DeferredAttributes.Proofs.Resolution.Sound

-- A tree and its attributes through any course of calls. Running parked attributes never tells
-- the need to wait; a refresh does, where a key without a value was declared in the meantime.
namespace DeferredAttributes
open Resolution

def Assignment.covered (t : Tree) (root : Option Nat) (a : Assignment) : Bool :=
  root.all fun root => t.isWithin a.target.node root

structure Underway (s : Resolution) (r : Refreshing) : Prop where
  typed : r.state.tree.Typed
  fills : s.tree.Fills r.state.tree
  back : ∀ key, (r.state.tree.stored? key).isSome = true → (s.tree.stored? key).isSome = true
  pending : r.state.pending = s.pending

def TellsBlocked (environment : Environment) (root : Option Nat) (s : Resolution) (assignments : List Assignment)
    (report : Report) : Prop :=
  ∀ issue key, issue ∈ report ∧ issue.blocked? = some key ↔ ∃ a ∈ assignments,
    a.covered s.tree root = true ∧ a.StuckOn environment s.tree key ∧ issue = a.issue s.tree (.blocked key)

section
variable {environment : Environment} {root : Option Nat} {s : Resolution} {r : Refreshing} {a : Assignment}

theorem Tree.SameShape.covered {t t' : Tree} (same : t.SameShape t') (root : Option Nat) (a : Assignment) :
    a.covered t' root = a.covered t root := by
  unfold Assignment.covered Tree.isWithin
  simp only [same.ancestors]

theorem TellsBlocked.single {new : Report} : TellsBlocked environment root s [a] new ↔ ∀ issue key,
    issue ∈ new ∧ issue.blocked? = some key ↔
      a.covered s.tree root = true ∧ a.StuckOn environment s.tree key ∧ issue = a.issue s.tree (.blocked key) := by
  simp [TellsBlocked]

theorem TellsBlocked.quiet {new : Report} (silent : ∀ issue ∈ new, issue.blocked? = none)
    (free : a.covered s.tree root = true → ∀ key, ¬a.StuckOn environment s.tree key) :
    TellsBlocked environment root s [a] new := by
  apply TellsBlocked.single.mpr
  intro issue key
  constructor
  · intro both
    rw [silent issue both.1] at both
    cases both.2
  · intro told
    exact absurd told.2.1 (free told.1 key)

theorem Underway.step (sound : Sound s) (underway : Underway s r) (checked : a.Checked)
    (stored : (s.tree.stored? a.target).isSome = true) :
    Underway s (r.step environment root a) ∧ (r.step environment root a).kept = r.kept ++ [a] ∧
      ∃ new, (r.step environment root a).state.issues = r.state.issues ++ new ∧
        TellsBlocked environment root s [a] new := by
  have coverage := underway.fills.shape.covered root a
  have same : ∀ key, a.StuckOn environment r.state.tree key ↔ a.StuckOn environment s.tree key := fun key =>
    Assignment.StuckOn.unchanged checked.builtin underway.fills sound.typed underway.typed underway.back
  have uncovered : (root.any fun root => !r.state.tree.isWithin a.target.node root) = !a.covered s.tree root := by
    rw [← coverage]
    unfold Assignment.covered
    cases root <;> rfl
  unfold Refreshing.step
  dsimp only
  rw [uncovered]
  cases covers : a.covered s.tree root with
  | false =>
    rw [Bool.not_false,if_pos rfl]
    refine ⟨⟨underway.typed,underway.fills,underway.back,underway.pending⟩,rfl,[],(List.append_nil _).symm,?_⟩
    exact .quiet (fun _ impossible => by cases impossible) fun covered => by rw [covers] at covered; cases covered
  | true =>
    rw [Bool.not_true,if_neg Bool.false_ne_true,Assignment.asked_self checked.builtin]
    cases tried : a.execute environment r.state.tree with
    | ok result =>
      obtain ⟨⟨deterministic,rejected⟩,t⟩ := result
      obtain ⟨typed,fills,_,untouched⟩ := Assignment.execute_fills underway.typed tried
      have back : ∀ key, (t.stored? key).isSome = true → (s.tree.stored? key).isSome = true := by
        intro key has
        by_cases own : key = a.target
        · rw [own]
          exact stored
        · rw [untouched key own] at has
          exact underway.back key has
      have free : ∀ key, ¬a.StuckOn environment s.tree key := by
        intro key stuck
        have blocked := ((same key).mpr stuck).blocked
        rw [tried] at blocked
        cases blocked
      cases rejected with
      | none =>
        exact ⟨⟨typed,underway.fills.trans fills,back,underway.pending⟩,rfl,[],(List.append_nil _).symm,
          .quiet (fun _ impossible => by cases impossible) fun _ => free⟩
      | some reason =>
        refine ⟨⟨typed,underway.fills.trans fills,back,underway.pending⟩,rfl,_,rfl,.quiet ?_ fun _ => free⟩
        intro issue member
        rw [List.mem_singleton.mp member]
        rfl
    | error error =>
      refine ⟨⟨underway.typed,underway.fills,underway.back,underway.pending⟩,rfl,_,rfl,TellsBlocked.single.mpr ?_⟩
      intro issue key
      have waits : error = .blocked key ↔ a.StuckOn environment s.tree key := by
        rw [← same key]
        constructor
        · intro blocked
          exact ⟨checked.checked,by rw [tried,blocked]⟩
        · intro stuck
          exact Except.error.inj (tried.symm.trans stuck.blocked)
      rw [List.mem_singleton,Assignment.issue_shape underway.fills.shape,covers,← waits]
      constructor
      · intro both
        obtain ⟨rfl,blocked⟩ := both
        have equal := Assignment.issue_blocked.mp blocked
        exact ⟨rfl,equal,by rw [equal]⟩
      · intro told
        obtain ⟨_,rfl,rfl⟩ := told
        exact ⟨rfl,Assignment.issue_blocked.mpr rfl⟩

theorem Underway.fold (sound : Sound s) (underway : Underway s r) {assignments : List Assignment}
    (among : ∀ a ∈ assignments, a ∈ s.retained) :
    let r' := assignments.foldl (Refreshing.step environment root) r
    Underway s r' ∧ r'.kept = r.kept ++ assignments ∧
      ∃ new, r'.state.issues = r.state.issues ++ new ∧ TellsBlocked environment root s assignments new := by
  induction assignments generalizing r with
  | nil => exact ⟨underway,(List.append_nil _).symm,[],(List.append_nil _).symm,by simp [TellsBlocked]⟩
  | cons a rest ih =>
    obtain ⟨checked,stored⟩ := sound.kept a (among a List.mem_cons_self)
    have step : Underway s (r.step environment root a) ∧ _ := underway.step sound checked stored
    obtain ⟨next,kept,new,issues,told⟩ := step
    obtain ⟨last,kept',new',issues',told'⟩ := ih next fun b member => among b (List.mem_cons_of_mem _ member)
    refine ⟨last,?_,new ++ new',?_,?_⟩
    · rw [List.foldl_cons,kept',kept,List.append_assoc]
      rfl
    · rw [List.foldl_cons,issues',issues,List.append_assoc]
    · intro issue key
      rw [List.mem_append,or_and_right,told issue key,told' issue key]
      simp

end

theorem Sound.refreshed (environment : Environment) (root : Option Nat) {s : Resolution} (sound : Sound s) :
    Sound (s.refresh environment root).2 ∧ TellsBlocked environment root s s.retained (s.refresh environment root).1 := by
  have first : Underway s ⟨{ s with issues := [] },[],[]⟩ := ⟨sound.typed,.refl _,fun _ has => has,rfl⟩
  have run : let r' := s.retained.foldl (Refreshing.step environment root) _; Underway s r' ∧ _ :=
    first.fold sound fun _ member => member
  obtain ⟨last,kept,new,issues,told⟩ := run
  unfold refresh
  dsimp only at kept issues ⊢
  generalize s.retained.foldl (Refreshing.step environment root) _ = done at *
  rw [issues,List.nil_append]
  have slots := Tree.slot_setValids done.touched (fun node => !done.state.failing node && !s.broken.contains node)
    done.state.tree
  refine ⟨⟨last.typed.slots slots,?_,?_,sound.issues⟩,told⟩
  · dsimp only
    rw [last.pending]
    exact sound.parked
  · dsimp only
    rw [kept,List.nil_append]
    intro a member
    refine ⟨(sound.kept a member).1,?_⟩
    rw [Tree.stored_slot,slots]
    exact last.fills.kept _ (sound.kept a member).2

-- What can be done with a tree and the attributes on their way. What the tree refuses changes
-- nothing.
inductive Call where
  | addChild (parent : Nat) (name : String) (origin : Origin)
  | declare (node : Nat) (name : String) (type : ValueType)
  | write (key : Key) (value : Value) (deterministic : Bool)
  | load (environment : Environment) (a : Assignment)
  | finish (environment : Environment)
  | refresh (environment : Environment) (root : Option Nat)

namespace Call

def perform (s : Resolution) : Call → Resolution
  | .addChild parent name origin =>
    match s.tree.addChild parent name origin with
    | .ok (_,t) => { s with tree := t }
    | .error _ => s
  | .declare node name type => { s with tree := s.tree.declare node name type }
  | .write key value deterministic =>
    match s.tree.write key value deterministic with
    | .ok t => { s with tree := t }
    | .error _ => s
  | .load environment a => s.load environment a
  | .finish environment => (s.finish environment).2
  | .refresh environment root => (s.refresh environment root).2

def builtin : Call → Bool
  | .load _ a => a.resolver.builtin
  | _ => true

def session (origin : Origin) (calls : List Call) : Resolution := calls.foldl perform (.start (.new origin))

end Call

theorem Sound.perform {s : Resolution} (sound : Sound s) {call : Call} (builtin : call.builtin = true) :
    Sound (call.perform s) := by
  cases call with
  | addChild parent name origin =>
    unfold Call.perform
    dsimp only
    split
    · rename_i added
      have slots := Tree.slot_addChild added
      exact sound.moved (sound.typed.slots slots) fun key has => by rwa [Tree.stored_slot,slots]
    · exact sound
  | declare node name type =>
    exact sound.moved (sound.typed.declare _ _ _) fun key has => by rw [Tree.stored_declare,has]
  | write key value deterministic =>
    unfold Call.perform
    dsimp only
    split
    · rename_i written
      obtain ⟨typed,fills,_⟩ := Tree.write_fills sound.typed written
      exact sound.moved typed fills.kept
    · exact sound
  | load environment a => exact sound.load environment builtin
  | finish environment =>
    have drained := (sound.drained environment).sound
    exact ⟨drained.typed,drained.parked,drained.kept,fun _ member => by cases member⟩
  | refresh environment root => exact (sound.refreshed environment root).1

theorem Call.session_sound (origin : Origin) {calls : List Call} (builtin : ∀ call ∈ calls, call.builtin = true) :
    Sound (session origin calls) := by
  have blank : (Tree.new origin).Typed := by
    intro key entry value found
    have none : (Tree.new origin).slot? key = none := by
      obtain ⟨node,name⟩ := key
      cases node <;> rfl
    rw [none] at found
    cases found
  unfold session
  have first : Sound (.start (.new origin)) := .start blank
  generalize Resolution.start (.new origin) = s at first
  induction calls generalizing s with
  | nil => exact first
  | cons call rest ih =>
    exact ih (fun call member => builtin call (List.mem_cons_of_mem _ member)) _
      (first.perform (builtin call List.mem_cons_self))

-- Finishing tells no attribute that it has to wait. A refresh tells it of those covered
-- attributes to which a key without a value is the first thing missing.
theorem session_blocked (origin : Origin) (calls : List Call) (builtin : ∀ call ∈ calls, call.builtin = true) :
    let s := Call.session origin calls
    (∀ environment, ∀ issue ∈ (s.finish environment).1, issue.blocked? = none) ∧
    (∀ environment, ∀ p ∈ s.pending, p.assignment.Told environment (s.finish environment).1 (s.finish environment).2.tree) ∧
    ∀ environment root issue key, issue ∈ (s.refresh environment root).1 ∧ issue.blocked? = some key ↔
      ∃ a ∈ s.retained, a.covered s.tree root = true ∧ a.StuckOn environment s.tree key ∧
        issue = a.issue s.tree (.blocked key) := by
  intro s
  have sound : Sound s := Call.session_sound origin builtin
  refine ⟨fun environment => (sound.drained environment).sound.issues,
    fun environment => (sound.drained environment).told,fun environment root => (sound.refreshed environment root).2⟩

-- A value that comes from a variable and from a key of the parent. Then a key of the same name
-- is declared nearer by, which nothing gives a value.
def nearby : List Call :=
  [.addChild 0 "inner" .blank,.declare 0 "base" .decimal,.write ⟨0,"base"⟩ (.decimal 3) true,
    .load (.ofTable [("fuel",2)]) ⟨⟨1,"speed"⟩,"$fuel + base",.expression .decimal,none,false⟩]

def shadowed : List Call := nearby ++ [.finish (.ofTable [("fuel",2)]),.declare 1 "base" .decimal]

theorem shadowed_session : Call.session .blank shadowed =
    let s := Call.session .blank nearby
    Call.perform { s with
      broken := ((List.range s.tree.nodes.size).filter fun i => !(s.tree.node i).valid && !s.failing i).foldl addNew s.broken
      issues := [] } (.declare 1 "base" .decimal) := by
  have idle : (Call.session .blank nearby).pending = [] := List.length_eq_zero_iff.mp (by decide +kernel)
  unfold Call.session at idle ⊢
  unfold shadowed
  rw [List.foldl_append,List.foldl_cons,List.foldl_cons,List.foldl_nil]
  change Call.perform ((nearby.foldl Call.perform (.start (.new .blank))).finish (.ofTable [("fuel",2)])).2 _ = _
  rw [finish_idle _ idle]

theorem session_blocked_shadowed :
    (∀ call ∈ shadowed, call.builtin = true) ∧
      (∀ issue ∈ ((Call.session .blank shadowed).finish .empty).1, issue.blocked? = none) ∧
      ∃ a ∈ (Call.session .blank shadowed).retained,
        a.StuckOn (.ofTable [("fuel",2)]) (Call.session .blank shadowed).tree ⟨1,"base"⟩ := by
  have builtin : ∀ call ∈ shadowed, call.builtin = true := by decide
  obtain ⟨finished,_,refreshed⟩ := session_blocked .blank shadowed builtin
  have told : (((Call.session .blank shadowed).refresh (.ofTable [("fuel",2)]) none).1.filterMap Issue.blocked?) =
      [⟨1,"base"⟩] := by
    rw [shadowed_session]
    decide +kernel
  obtain ⟨issue,member,blocked⟩ := List.mem_filterMap.mp (told ▸ List.mem_cons_self)
  obtain ⟨a,kept,_,stuck,_⟩ := (refreshed _ none issue _).mp ⟨member,blocked⟩
  exact ⟨builtin,finished .empty,a,kept,stuck⟩

-- The refresh says that the attribute waits for the key, although nothing is to come.
theorem shadowed_waits :
    (Call.session .blank shadowed).pending.length = 0 ∧
      ((Call.session .blank shadowed).refresh (.ofTable [("fuel",2)]) none).1.filterMap Issue.blocked? =
        [⟨1,"base"⟩] := by
  rw [shadowed_session]
  decide +kernel

end DeferredAttributes
