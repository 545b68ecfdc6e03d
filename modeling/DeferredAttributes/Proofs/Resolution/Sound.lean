import DeferredAttributes.Proofs.Resolution.Waiting

-- What holds however a tree came about: by loads over keys that were written before, by several
-- loads for one key, between refreshes. In particular the need to wait is no issue.
namespace DeferredAttributes
open Resolution

def Issue.blocked? : Issue → Option Key
  | .failed _ _ (.blocked key) => some key
  | _ => none

structure Assignment.Checked (a : Assignment) : Prop where
  builtin : a.resolver.builtin = true
  checked : a.resolver.check a.raw = .ok ()

structure Sound (s : Resolution) : Prop where
  typed : s.tree.Typed
  parked : ∀ p ∈ s.pending, p.assignment.Checked
  kept : ∀ a ∈ s.retained, a.Checked ∧ (s.tree.stored? a.target).isSome = true
  issues : ∀ issue ∈ s.issues, issue.blocked? = none

theorem Resolver.check_final {r : Resolver} {raw : String} {error : ResolveError} (failed : r.check raw = .error error)
    (key : Key) : error ≠ .blocked key := by
  unfold check at failed
  cases r with
  | literal | custom => cases failed
  | expression type =>
    dsimp only at failed
    split at failed
    · cases failed
    · rename_i fault malformed
      cases failed
      intro blocked
      obtain ⟨text,rfl⟩ := ResolveError.ofExpression_blocked blocked
      unfold Expression.check at malformed
      split at malformed <;> cases malformed

theorem Assignment.issue_blocked {t : Tree} {a : Assignment} {error : ResolveError} {key : Key} :
    (a.issue t error).blocked? = some key ↔ error = .blocked key := by
  unfold issue
  cases error <;> simp [Issue.blocked?]

theorem Assignment.issue_final {t : Tree} {a : Assignment} {error : ResolveError} (final : ∀ key, error ≠ .blocked key) :
    (a.issue t error).blocked? = none :=
  Option.eq_none_iff_forall_ne_some.mpr fun key same => final key (issue_blocked.mp same)

theorem Assignment.issue_shape {t t' : Tree} (same : t.SameShape t') (a : Assignment) (error : ResolveError) :
    a.issue t' error = a.issue t error := by
  unfold issue
  rw [same.displayKey,(same.nodes _).origin]

theorem Assignment.execute_fills {environment : Environment} {t t' : Tree} {a : Assignment} {done : Executed}
    (typed : t.Typed) (executed : a.execute environment t = .ok (done,t')) :
    t'.Typed ∧ t.Fills t' ∧ (t'.stored? a.target).isSome = true ∧
      ∀ other, other ≠ a.target → t'.stored? other = t.stored? other := by
  unfold execute at executed
  split at executed
  · cases executed
  · dsimp only at executed
    split at executed
    · cases executed
    · rename_i written
      cases executed
      exact Tree.write_fills typed written

namespace Sound
variable {environment : Environment} {s : Resolution} {a : Assignment}

theorem start {t : Tree} (typed : t.Typed) : Sound (.start t) :=
  ⟨typed,fun _ member => (by cases member),fun _ member => (by cases member),fun _ member => (by cases member)⟩

theorem moved (sound : Sound s) {t : Tree} (typed : t.Typed)
    (more : ∀ key, (s.tree.stored? key).isSome = true → (t.stored? key).isSome = true) : Sound { s with tree := t } :=
  ⟨typed,sound.parked,fun a member => ⟨(sound.kept a member).1,more _ (sound.kept a member).2⟩,sound.issues⟩

theorem pending (sound : Sound s) {pending : List Parked} (parked : ∀ p ∈ pending, p.assignment.Checked) :
    Sound { s with pending := pending } :=
  ⟨sound.typed,parked,sound.kept,sound.issues⟩

theorem fail (sound : Sound s) (a : Assignment) {error : ResolveError} (final : ∀ key, error ≠ .blocked key) :
    Sound (s.fail a error) := by
  refine ⟨sound.typed.slots (s.tree.slot_setValid _ _),sound.parked,?_,?_⟩
  · intro b member
    refine ⟨(sound.kept b member).1,?_⟩
    rw [fail_tree,Tree.stored_setValid]
    exact (sound.kept b member).2
  · intro issue member
    rcases List.mem_append.mp member with old | new
    · exact sound.issues issue old
    · rw [List.mem_singleton.mp new]
      exact Assignment.issue_final final

theorem keep (sound : Sound s) (checked : a.Checked) (stored : (s.tree.stored? a.target).isSome = true) :
    Sound { s with retained := s.retained ++ [a] } := by
  refine ⟨sound.typed,sound.parked,?_,sound.issues⟩
  intro b member
  rcases List.mem_append.mp member with old | new
  · exact sound.kept b old
  · rw [List.mem_singleton.mp new]
    exact ⟨checked,stored⟩

theorem succeed (sound : Sound s) (checked : a.Checked) (stored : (s.tree.stored? a.target).isSome = true)
    (done : Executed) : Sound (s.succeed a done) := by
  unfold Resolution.succeed
  cases done.rejected with
  | none =>
    dsimp only
    split
    · exact sound
    · exact sound.keep checked stored
  | some reason =>
    have rejected : Sound (s.fail a (.validation reason)) := sound.fail a fun _ impossible => by cases impossible
    have remains : ((s.fail a (.validation reason)).tree.stored? a.target).isSome = true := by
      rw [fail_tree,Tree.stored_setValid]
      exact stored
    dsimp only
    split
    · exact rejected
    · exact rejected.keep checked remains

theorem executed (sound : Sound s) (checked : a.Checked) {done : Executed} {t : Tree}
    (executed : a.execute environment s.tree = .ok (done,t)) : Sound ({ s with tree := t }.succeed a done) := by
  obtain ⟨typed,fills,stored,_⟩ := Assignment.execute_fills sound.typed executed
  exact (sound.moved typed fills.kept).succeed checked stored done

theorem load (sound : Sound s) (environment : Environment) {a : Assignment} (builtin : a.resolver.builtin = true) :
    Sound (s.load environment a) := by
  have declared : Sound { s with tree := s.tree.declare a.target.node a.target.name a.resolver.type } :=
    sound.moved (sound.typed.declare _ _ _) fun key has => by rw [Tree.stored_declare,has]
  unfold Resolution.load
  dsimp only
  rw [Assignment.asked_self builtin]
  cases passed : a.resolver.check a.raw with
  | error error => exact declared.fail a (Resolver.check_final passed)
  | ok done =>
    have checked : a.Checked := ⟨builtin,passed⟩
    dsimp only
    split
    · rename_i stored
      exact declared.executed checked stored
    · apply declared.pending
      intro p member
      rcases List.mem_append.mp member with old | new
      · exact sound.parked p old
      · rw [List.mem_singleton.mp new]
        exact checked
    · rename_i other _
      exact declared.fail a fun key same => other key (by rw [same])

theorem abandon (sound : Sound s) (pending : List Parked) : Sound (s.abandon pending) := by
  refine ⟨sound.typed.slots (s.abandon_slot pending),fun _ member => (by cases member),?_,?_⟩
  · intro a member
    rw [abandon_stored]
    exact sound.kept a member
  · intro issue member
    rcases List.mem_append.mp member with old | new
    · exact sound.issues issue old
    · rw [List.mem_singleton.mp new]
      rfl

end Sound

-- Where an attribute waits for a key in the end, the report says that there is no such key, or
-- lists the attribute among those that wait for each other.
def Assignment.Told (environment : Environment) (report : Report) (t : Tree) (a : Assignment) : Prop :=
  ∀ key, a.StuckOn environment t key → a.issue t (.unknownIdentifier (t.displayKey key)) ∈ report ∨
    ∃ waiting ∈ report.filterMap Issue.circle?, t.displayKey a.target ∈ waiting.map Prod.fst

-- What running parked attributes comes to. A key that none of them is for gets no first value.
structure Drained (environment : Environment) (s s' : Resolution) : Prop where
  sound : Sound s'
  fills : s.tree.Fills s'.tree
  issues : ∀ issue ∈ s.issues, issue ∈ s'.issues
  closed : ∀ key, key ∉ Parked.targets s.pending → (s'.tree.stored? key).isSome = true → (s.tree.stored? key).isSome = true
  told : ∀ p ∈ s.pending, p.assignment.Told environment s'.issues s'.tree

-- One attempt at a parked attribute. That is parked again, or it has come to its end, and if it
-- waits for a key then, that is one that nothing parked is for.
structure Attempted (environment : Environment) (s s' : Resolution) (p : Parked) (others : List Parked) : Prop where
  sound : Sound s'
  fills : s.tree.Fills s'.tree
  issues : ∀ issue ∈ s.issues, issue ∈ s'.issues
  closed : ∀ key, key ≠ p.assignment.target → s'.tree.stored? key = s.tree.stored? key
  outcome : (∃ q, q.assignment = p.assignment ∧ s'.pending = others ++ [q]) ∨
    s'.pending = others ∧ ∀ key, p.assignment.StuckOn environment s'.tree key → key ∉ Parked.targets others ∧
      p.assignment.issue s'.tree (.unknownIdentifier (s'.tree.displayKey key)) ∈ s'.issues

section
variable {environment : Environment} {s s' s'' : Resolution} {p : Parked} {others : List Parked}

theorem Assignment.Checked.free {a : Assignment} (checked : a.Checked) {t t' : Tree} (typed : t.Typed) (typed' : t'.Typed)
    (more : t.Fills t') (free : ∀ key, a.execute environment t ≠ .error (.blocked key)) (key : Key) :
    ¬a.StuckOn environment t' key := by
  intro stuck
  rcases stuck.before checked.builtin more typed typed' with earlier | ⟨other,earlier,_⟩
  · exact free key earlier.blocked
  · exact free other earlier.blocked

theorem Attempted.failed (sound : Sound s) (checked : p.assignment.Checked) (remaining : ∀ q ∈ others, q.assignment.Checked)
    {error reported : ResolveError} (tried : p.assignment.execute environment s.tree = .error error)
    (final : ∀ key, reported ≠ .blocked key)
    (named : ∀ key, error = .blocked key → key ∉ Parked.targets others ∧ reported = .unknownIdentifier (s.tree.displayKey key)) :
    Attempted environment s (({ s with pending := others } : Resolution).fail p.assignment reported) p others := by
  have fills : s.tree.Fills (s.tree.setValid p.assignment.target.node false) := .setValid _ _ _
  have typed := sound.typed.slots (s.tree.slot_setValid p.assignment.target.node false)
  refine ⟨(sound.pending remaining).fail _ final,fills,fun issue member => List.mem_append_left _ member,
    fun key _ => Tree.stored_setValid _ _ _ _,.inr ⟨rfl,?_⟩⟩
  intro key stuck
  have same : p.assignment.StuckOn environment _ key ↔ p.assignment.StuckOn environment s.tree key :=
    Assignment.StuckOn.unchanged checked.builtin fills sound.typed typed fun key has => by
      rwa [Tree.stored_setValid] at has
  have blocked := (same.mp stuck).blocked
  rw [tried] at blocked
  obtain ⟨absent,told⟩ := named key (Except.error.inj blocked)
  refine ⟨absent,?_⟩
  rw [fail_tree,Assignment.issue_shape fills.shape,fills.shape.displayKey,← told]
  exact List.mem_append_right _ (List.mem_singleton.mpr rfl)

theorem Sound.attempt (sound : Sound s) (checked : p.assignment.Checked) (remaining : ∀ q ∈ others, q.assignment.Checked) :
    Attempted environment s (s.attempt environment p others) p others := by
  unfold Resolution.attempt
  dsimp only
  rw [Assignment.asked_self checked.builtin]
  cases tried : p.assignment.execute environment s.tree with
  | ok result =>
    obtain ⟨done,t⟩ := result
    obtain ⟨typed,fills,_,untouched⟩ := Assignment.execute_fills sound.typed tried
    have stored := (sound.pending remaining).executed checked tried
    have more : s.tree.Fills (({ s with pending := others, tree := t } : Resolution).succeed p.assignment done).tree :=
      fills.trans (succeed_extends { s with pending := others, tree := t } _ _).fills
    refine ⟨stored,more,?_,?_,.inr ⟨succeed_pending .., ?_⟩⟩
    · intro issue member
      rw [succeed_issues]
      exact List.mem_append_left _ member
    · intro key other
      rw [succeed_stored]
      exact untouched key other
    · intro key stuck
      refine absurd stuck (checked.free sound.typed stored.typed more ?_ key)
      intro key impossible
      rw [tried] at impossible
      cases impossible
  | error error =>
    cases error with
    | blocked key =>
      dsimp only
      split
      · have parked : ∀ q ∈ others ++ [⟨p.assignment,addNew p.blockers key⟩], q.assignment.Checked := by
          intro q member
          rcases List.mem_append.mp member with old | new
          · exact remaining q old
          · rw [List.mem_singleton.mp new]
            exact checked
        exact ⟨sound.pending parked,.refl _,fun _ member => member,fun _ _ => rfl,
          .inl ⟨⟨p.assignment,addNew p.blockers key⟩,rfl,rfl⟩⟩
      · rename_i absent
        refine .failed sound checked remaining tried (fun _ impossible => by cases impossible) ?_
        intro other same
        cases same
        exact ⟨fun among => absent (List.mem_cons_of_mem _ among),rfl⟩
    | unknownIdentifier | malformed | lookup | conversion | store | validation =>
      exact .failed sound checked remaining tried (fun _ impossible => by cases impossible)
        fun _ impossible => by cases impossible

theorem Attempted.remains (step : Attempted environment s s' p others) {q : Parked} (member : q ∈ others) :
    q ∈ s'.pending := by
  rcases step.outcome with ⟨_,_,pending⟩ | ⟨pending,_⟩
  · rw [pending]
    exact List.mem_append_left _ member
  · rw [pending]
    exact member

-- What was told about the key that the attribute waits for holds to the end, as nothing parked
-- is for that key.
theorem Attempted.told (step : Attempted environment s s' p others) (checked : p.assignment.Checked)
    (next : Drained environment s' s'') : p.assignment.Told environment s''.issues s''.tree := by
  rcases step.outcome with ⟨q,same,pending⟩ | ⟨pending,told⟩
  · rw [← same]
    exact next.told q (by rw [pending]; simp)
  · intro key stuck
    left
    rcases stuck.before checked.builtin next.fills step.sound.typed next.sound.typed with
      earlier | ⟨other,earlier,written⟩
    · rw [Assignment.issue_shape next.fills.shape,next.fills.shape.displayKey]
      exact next.issues _ (told key earlier).2
    · have has := next.closed other (by rw [pending]; exact (told other earlier).1) written
      rw [earlier.blank checked.builtin] at has
      cases has

theorem Attempted.drained (step : Attempted environment s s' p others) (checked : p.assignment.Checked)
    (perm : (Parked.settled s.pending).Perm (p :: others)) (next : Drained environment s' s'') :
    Drained environment s s'' := by
  have targets : ∀ key, key ∈ Parked.targets s.pending ↔ key ∈ Parked.targets (p :: others) := by
    intro key
    rw [← Parked.targets_settled s.pending]
    exact (perm.map fun q : Parked => q.assignment.target).mem_iff
  have fewer : ∀ key ∈ Parked.targets s'.pending, key ∈ Parked.targets s.pending := by
    intro key member
    rw [targets]
    rcases step.outcome with ⟨q,same,pending⟩ | ⟨pending,_⟩
    · rw [pending,Parked.targets,List.map_append] at member
      rcases List.mem_append.mp member with old | new
      · exact List.mem_cons_of_mem _ old
      · rw [List.map_singleton,List.mem_singleton,same] at new
        rw [new]
        exact List.mem_cons_self
    · rw [pending] at member
      exact List.mem_cons_of_mem _ member
  refine ⟨next.sound,step.fills.trans next.fills,fun issue member => next.issues issue (step.issues issue member),?_,?_⟩
  · intro key absent has
    have earlier := next.closed key (fun among => absent (fewer key among)) has
    have other : key ≠ p.assignment.target := fun same => absent ((targets key).mpr (same ▸ List.mem_cons_self))
    rwa [step.closed key other] at earlier
  · intro original member
    have settled : original.settle (Parked.targets s.pending) ∈ Parked.settled s.pending :=
      List.mem_map.mpr ⟨original,member,rfl⟩
    rcases List.mem_cons.mp (perm.mem_iff.mp settled) with here | further
    · have own : original.assignment = p.assignment := by rw [← here]; rfl
      rw [own]
      exact step.told checked next
    · exact next.told (original.settle (Parked.targets s.pending)) (step.remains further)

theorem Sound.drained_stuck (sound : Sound s) : Drained environment s (s.abandon (Parked.settled s.pending)) := by
  have shape := (s.abandon_extends (Parked.settled s.pending)).shape
  refine ⟨sound.abandon _,(s.abandon_extends _).fills,fun issue member => List.mem_append_left _ member,?_,?_⟩
  · intro key _ has
    rwa [abandon_stored] at has
  · intro p member key _
    right
    refine ⟨_,List.mem_filterMap.mpr ⟨_,List.mem_append_right _ (List.mem_singleton.mpr rfl),rfl⟩,?_⟩
    rw [shape.displayKey,List.map_map]
    exact List.mem_map.mpr ⟨p.settle (Parked.targets s.pending),List.mem_map.mpr ⟨p,member,rfl⟩,rfl⟩

end

theorem Sound.drained (environment : Environment) {s : Resolution} (sound : Sound s) :
    Drained environment s (s.drain environment) := by
  by_cases none : s.pending = []
  · rw [(drain_empty environment none).1]
    refine ⟨sound,.refl _,fun _ member => member,fun _ _ has => has,?_⟩
    intro p member
    rw [none] at member
    cases member
  · cases first : Parked.takeReady? (Parked.settled s.pending) with
    | none =>
      rw [(drain_stuck environment none first).1]
      exact sound.drained_stuck
    | some pair =>
      obtain ⟨p,others⟩ := pair
      obtain ⟨perm,_⟩ := Parked.takeReady_perm first
      have parked : ∀ q ∈ p :: others, q.assignment.Checked := by
        intro q member
        obtain ⟨original,present,same⟩ := List.mem_map.mp (perm.mem_iff.mpr member)
        rw [← same]
        exact sound.parked original present
      have checked := parked p List.mem_cons_self
      have step : Attempted environment s (s.attempt environment p others) p others :=
        sound.attempt checked fun q member => parked q (List.mem_cons_of_mem _ member)
      rw [(drain_taken environment first).1]
      exact step.drained checked perm (Sound.drained environment step.sound)
termination_by (s.pending.length,Parked.readyCount s.pending)
decreasing_by exact attempt_decreases environment s ‹_›

end DeferredAttributes
