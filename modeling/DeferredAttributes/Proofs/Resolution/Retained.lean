import DeferredAttributes.Proofs.Resolution.Unique
import DeferredAttributes.Proofs.Resolver.Unsteady

-- What a load keeps for the refreshes to come: the attributes whose values may change, in the
-- order in which they got them, which is an order of dependency.
namespace DeferredAttributes
open Resolution

section
variable {environment : Environment} {s s' last : Resolution} {rest : List Assignment} {history : List Attempt}
  {a : Assignment}

theorem retainedOf_sublist (history : List Attempt) :
    (history.filterMap Attempt.retained?).Sublist (history.map Attempt.assignment) := by
  induction history with
  | nil => exact .slnil
  | cons e rest ih =>
    obtain ⟨a,ending⟩ := e
    cases ending with
    | failed | abandoned => exact ih.cons a
    | executed done =>
      obtain ⟨deterministic,rejected⟩ := done
      cases deterministic with
      | true => exact ih.cons a
      | false => exact ih.cons_cons a

theorem Upheld.checked {t : Tree} {circle : List Key} {later : List Attempt} {ending : Ending}
    (upheld : Upheld environment t circle later a ending) {content : Value × Bool}
    (stored : t.stored? a.target = some content) : a.resolver.check a.raw = .ok () := by
  cases upheld with
  | malformed checked blank =>
    rw [blank] at stored
    cases stored
  | failed checked | lost checked | executed checked | abandoned checked => exact checked

theorem Upheld.retained {t : Tree} {circle : List Key} {later : List Attempt} {ending : Ending}
    (upheld : Upheld environment t circle later a ending) :
    Attempt.retained? ⟨a,ending⟩ = some a ↔ ∃ value, t.stored? a.target = some (value,false) := by
  cases upheld with
  | malformed _ blank | failed _ _ _ blank | lost _ _ _ _ blank | abandoned _ _ _ _ blank =>
    simp [Attempt.retained?,blank]
  | @executed value deterministic _ _ stored =>
    rw [stored]
    cases deterministic <;> simp [Attempt.retained?]

theorem Attempt.retained_own {e : Attempt} (found : e.retained? = some a) : e.assignment = a := by
  unfold retained? at found
  split at found
  · split at found
    · cases found
    · exact Option.some.inj found
  · cases found
  · cases found

theorem Runs.mem_retained (ready : Open environment s rest) (run : Runs environment s rest history last) :
    a ∈ history.filterMap Attempt.retained? ↔
      a ∈ history.map Attempt.assignment ∧ ∃ value, last.tree.stored? a.target = some (value,false) := by
  rw [List.mem_filterMap,List.mem_map]
  constructor
  · intro kept
    obtain ⟨e,member,found⟩ := kept
    obtain ⟨later,_,upheld⟩ := (run.truthful ready).mem member
    have own := Attempt.retained_own found
    subst own
    exact ⟨⟨e,member,rfl⟩,upheld.retained.mp found⟩
  · intro both
    obtain ⟨⟨e,member,rfl⟩,stored⟩ := both
    obtain ⟨later,_,upheld⟩ := (run.truthful ready).mem member
    exact ⟨e,member,upheld.retained.mpr stored⟩

theorem Concludes.reads {ending : Ending} (ready : Open environment s (a :: rest))
    (step : Concludes environment s rest a ending s') (kept : Attempt.retained? ⟨a,ending⟩ = some a) :
    ∀ key ∈ a.reads s.tree, (s.tree.stored? key).isSome = true := by
  cases step with
  | malformed | failed | lost => cases kept
  | executed checked answered => exact Assignment.answer_known ready.head.builtin checked answered

theorem Open.unread (ready : Open environment s rest) {key : Key} (still : key ∈ s.openKeys rest)
    (known : ∀ key ∈ a.reads s.tree, (s.tree.stored? key).isSome = true) : key ∉ a.reads s.tree := by
  intro read
  have blank : s.tree.stored? key = none := by
    rcases List.mem_append.mp still with parked | coming
    · obtain ⟨p,member,rfl⟩ := List.mem_map.mp parked
      exact (ready.ready p.assignment (List.mem_append_left _ (List.mem_map.mpr ⟨p,member,rfl⟩))).blank
    · obtain ⟨b,member,rfl⟩ := List.mem_map.mp coming
      exact (ready.ready b (List.mem_append_right _ member)).blank
  have has := known key read
  rw [blank] at has
  cases has

theorem Runs.unread (ready : Open environment s rest) (run : Runs environment s rest history last) :
    (history.filterMap Attempt.retained?).Pairwise (fun earlier later => later.target ∉ earlier.reads last.tree) ∧
      ∀ a ∈ history.filterMap Attempt.retained?, a.target ∉ a.reads last.tree := by
  induction run with
  | empty => exact ⟨.nil,fun _ impossible => by cases impossible⟩
  | @concluded s s' last a rest ending later step next ih =>
    obtain ⟨ordered,own⟩ := ih (ready.concluded step)
    rw [List.filterMap_cons]
    cases kept : Attempt.retained? ⟨a,ending⟩ with
    | none => exact ⟨ordered,own⟩
    | some b =>
      cases Attempt.retained_own kept
      have known := step.reads ready kept
      have shape : s.tree.SameShape last.tree := (step.grows.trans next.grows).shape
      have apart : ∀ key ∈ s.openKeys (a :: rest), key ∉ a.reads last.tree := by
        intro key still
        rw [shape.reads]
        exact ready.unread still known
      have behind : ∀ b ∈ later.filterMap Attempt.retained?, b.target ∈ s.openKeys (a :: rest) := by
        intro b member
        obtain ⟨e,present,found⟩ := List.mem_filterMap.mp member
        have target : b.target ∈ s'.openKeys rest := by
          rw [← Attempt.retained_own found]
          exact next.targets.mem_iff.mp (List.mem_map.mpr ⟨e,present,rfl⟩)
        unfold openKeys at target ⊢
        rw [step.pending] at target
        rcases List.mem_append.mp target with parked | coming
        · exact List.mem_append_left _ parked
        · exact List.mem_append_right _ (List.mem_cons_of_mem _ coming)
      have self : a.target ∈ s.openKeys (a :: rest) := List.mem_append_right _ List.mem_cons_self
      refine ⟨List.pairwise_cons.mpr ⟨fun b member => apart _ (behind b member),ordered⟩,?_⟩
      intro b member
      rcases List.mem_cons.mp member with rfl | later
      · exact apart _ self
      · exact own b later
  | parked checked answered next ih => exact ih (ready.parked checked answered)
  | taken first next ih => exact ih (ready.taken first).1
  | abandoned some stuck =>
    rw [Recorded.abandoned_retained]
    exact ⟨.nil,fun _ impossible => by cases impossible⟩

end
end DeferredAttributes
