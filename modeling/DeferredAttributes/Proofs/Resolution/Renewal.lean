import DeferredAttributes.Proofs.Resolution.Order
import DeferredAttributes.Proofs.Resolution.Refreshing
import DeferredAttributes.Proofs.Resolver.Reads

-- A refresh makes of a load what a load with the new variables would have made. It goes through
-- the attributes in the order of their values, and so meets none before those that it reads.
namespace DeferredAttributes
open Resolution

-- An attribute after a load: its key holds what its text comes to, and counts as failing when
-- it holds nothing, or a value that is turned down.
structure Settled (environment : Environment) (s : Resolution) (a : Assignment) : Prop where
  solved : ∀ content, s.tree.stored? a.target = some content → a.answer environment s.tree = .ok content
  closed : a.resolver.check a.raw = .ok () →
    ∀ content, a.answer environment s.tree = .ok content → s.tree.stored? a.target = some content
  failing : a.target ∈ s.failures ↔
    ∀ content, s.tree.stored? a.target = some content → (a.rejection content.1).isSome = true

theorem Upheld.fails {environment : Environment} {t : Tree} {circle : List Key} {later : List Attempt} {a : Assignment}
    {ending : Ending} (upheld : Upheld environment t circle later a ending) :
    Attempt.fails ⟨a,ending⟩ = true ↔
      ∀ content, t.stored? a.target = some content → (a.rejection content.1).isSome = true := by
  cases upheld with
  | malformed _ blank | failed _ _ _ blank | lost _ _ _ _ blank | abandoned _ _ _ _ blank =>
    simp [Attempt.fails,blank]
  | executed _ _ stored => simp [Attempt.fails,stored]

section
variable {environment : Environment} {t : Tree} {last : Resolution} {assignments : List Assignment}
  {history : List Attempt} (first : Open environment (.start t) assignments)
  (run : Runs environment (.start t) assignments history last)
include first run

theorem Runs.failing_iff (key : Key) : key ∈ last.failures ↔ ∃ e ∈ history, e.fails = true ∧ e.target = key := by
  rw [(run.recorded first).failures]
  exact or_iff_right List.not_mem_nil

theorem Runs.settled {a : Assignment} (member : a ∈ assignments) : Settled environment last a := by
  have known : a ∈ history.map Attempt.assignment := run.once.mem_iff.mpr member
  have truthful := run.truthful first
  obtain ⟨e,present,rfl⟩ := List.mem_map.mp known
  obtain ⟨later,_,upheld⟩ := truthful.mem present
  refine ⟨fun content => upheld.solved,fun checked content => upheld.closed checked,?_⟩
  rw [← upheld.fails,run.failing_iff first]
  constructor
  · rintro ⟨other,among,fails,same⟩
    rwa [first.only run among present same] at fails
  · exact fun fails => ⟨e,present,fails,rfl⟩

end

-- A refresh under way, next to the load that it repeats, which ends in `last`, and to the load
-- that it is to agree with, which ends in `last'`. What has a value at this point of the
-- repeated load is renewed, and the rest is as that load left it.
structure Renewed (last last' : Resolution) (t : Tree) (u : Resolution) : Prop where
  shape : last'.tree.SameShape u.tree
  done : ∀ key, (t.stored? key).isSome = true →
    u.tree.stored? key = last'.tree.stored? key ∧ (key ∈ u.failures ↔ key ∈ last'.failures)
  steady : ∀ key value, t.stored? key = some (value,true) → last'.tree.stored? key = some (value,true)
  left : ∀ key, t.stored? key = none →
    u.tree.slot? key = last.tree.slot? key ∧ (key ∈ u.failures ↔ key ∈ last.failures)

theorem Renewed.same {last last' u : Resolution} {t t' : Tree} (renewed : Renewed last last' t u)
    (same : ∀ key, t'.stored? key = t.stored? key) : Renewed last last' t' u := by
  refine ⟨renewed.shape,?_,?_,?_⟩
  · intro key has
    rw [same] at has
    exact renewed.done key has
  · intro key value has
    rw [same] at has
    exact renewed.steady key value has
  · intro key blank
    rw [same] at blank
    exact renewed.left key blank

theorem Refreshing.step_stores {environment : Environment} {r : Refreshing} {a : Assignment} {entry : Entry}
    {value : Value} {deterministic : Bool} (found : r.state.tree.slot? a.target = some entry)
    (answered : a.answer environment r.state.tree = .ok (value,deterministic)) :
    (r.step environment none a).state.tree = r.state.tree.put a.target entry value deterministic ∧
      ∀ key, key ∈ (r.step environment none a).state.failures ↔
        if key = a.target then (a.rejection value).isSome = true else key ∈ r.state.failures := by
  unfold Refreshing.step
  simp only [Assignment.execute_answer environment found,answered,Option.any_none,Bool.false_eq_true,if_false]
  cases rejected : a.rejection value with
  | none =>
    refine ⟨rfl,?_⟩
    intro key
    by_cases same : key = a.target <;> simp [same]
  | some reason =>
    refine ⟨rfl,?_⟩
    intro key
    by_cases same : key = a.target <;> simp [same,mem_addNew]

section
variable {environment environment' : Environment} {t t' : Tree} {last last' : Resolution} {a : Assignment}
  {value : Value} {deterministic : Bool}
  (builtin : a.resolver.builtin = true) (checked : a.resolver.check a.raw = .ok ())
  (blank : t.stored? a.target = none) (settled' : Settled environment' last' a)
  (written : ∀ key, t'.stored? key =
    if key = a.target then some (value,deterministic) else t.stored? key)
  (shape : t.SameShape last'.tree)
  (answered : a.answer environment t = .ok (value,deterministic))
include builtin checked blank settled' written shape answered

theorem Renewed.spared {u : Resolution} (renewed : Renewed last last' t u) (settled : Settled environment last a)
    (grows : t'.Extends last.tree) (steady : deterministic = true) : Renewed last last' t' u := by
  subst steady
  have there : last'.tree.stored? a.target = some (value,true) :=
    settled'.closed checked _ (Assignment.answer_steady builtin checked environment' shape
      (fun key _ => renewed.steady key) answered)
  have here : last.tree.stored? a.target = some (value,true) := grows.kept _ _ (by rw [written,if_pos rfl])
  refine ⟨renewed.shape,?_,?_,?_⟩
  · intro key has
    by_cases same : key = a.target
    · subst same
      obtain ⟨slot,failing⟩ := renewed.left _ blank
      refine ⟨?_,?_⟩
      · rw [Tree.stored_slot,slot,← Tree.stored_slot,here,there]
      · rw [failing,settled.failing,settled'.failing,here,there]
    · rw [written,if_neg same] at has
      exact renewed.done key has
  · intro key other has
    rw [written] at has
    split at has
    · rename_i same
      cases has
      rw [same]
      exact there
    · exact renewed.steady key other has
  · intro key none
    rw [written] at none
    split at none
    · cases none
    · exact renewed.left key none

omit blank in
-- All that an attribute reads is renewed by the time that the refresh tries it again.
theorem Renewed.retried {u : Refreshing} (renewed : Renewed last last' t u.state)
    (has : (last'.tree.stored? a.target).isSome = true) (changes : deterministic = false) :
    Renewed last last' t' (u.step environment' none a).state := by
  subst changes
  obtain ⟨⟨value',flag⟩,there⟩ := Option.isSome_iff_exists.mp has
  have reads : ∀ key ∈ a.reads last'.tree, u.state.tree.stored? key = last'.tree.stored? key := by
    intro key member
    unfold Assignment.reads at member
    rw [shape.keysRead] at member
    exact (renewed.done key (Assignment.answer_known builtin checked answered key member)).1
  have again : a.answer environment' u.state.tree = .ok (value',flag) := by
    rw [Assignment.answer_agree builtin checked renewed.shape reads]
    exact settled'.solved _ there
  have declared : (u.state.tree.slot? a.target).isSome = true := by
    rw [renewed.shape.slot_isSome]
    cases slot : last'.tree.slot? a.target with
    | some entry => rfl
    | none => rw [Tree.stored_slot,slot] at there; cases there
  obtain ⟨entry,found⟩ := Option.isSome_iff_exists.mp declared
  obtain ⟨tree,failures⟩ := Refreshing.step_stores found again
  refine ⟨?_,?_,?_,?_⟩
  · rw [tree]
    exact renewed.shape.trans (Tree.shape_put found _ _)
  · intro key known
    rw [tree,Tree.stored_put found,failures]
    by_cases same : key = a.target
    · subst same
      rw [if_pos rfl,if_pos rfl,there,settled'.failing,there]
      simp
    · rw [if_neg same,if_neg same]
      rw [written,if_neg same] at known
      exact renewed.done key known
  · intro key other known
    rw [written] at known
    split at known
    · cases known
    · exact renewed.steady key other known
  · intro key none
    rw [written] at none
    split at none
    · cases none
    · rename_i other
      rw [tree,Tree.slot_put found,if_neg other,failures,if_neg other]
      exact renewed.left key none

end

section
variable {environment environment' : Environment} {s s' last last' : Resolution} {rest : List Assignment}
  {a : Assignment} {ending : Ending} {history : List Attempt}

theorem Concludes.renewed (awaited : a.Awaited s.tree) (step : Concludes environment s rest a ending s')
    (grows : s'.tree.Extends last.tree) (shape : s.tree.SameShape last'.tree) (settled : Settled environment last a)
    (settled' : Settled environment' last' a)
    (both : (last.tree.stored? a.target).isSome = true → (last'.tree.stored? a.target).isSome = true)
    {u : Refreshing} (renewed : Renewed last last' s.tree u.state) :
    Renewed last last' s'.tree ((Attempt.retained? ⟨a,ending⟩).toList.foldl (Refreshing.step environment' none) u).state := by
  cases step with
  | malformed | failed | lost => exact renewed.same fun key => Tree.stored_setValid ..
  | @executed value deterministic entry checked answered found empty =>
    have written : ∀ key, ({ s with tree := s.tree.put a.target entry value deterministic }.succeed a
        ⟨deterministic,a.rejection value⟩).tree.stored? key =
          if key = a.target then some (value,deterministic) else s.tree.stored? key := by
      intro key
      rw [succeed_stored,Tree.stored_put found]
    cases kept : deterministic with
    | true =>
      subst kept
      exact renewed.spared awaited.builtin checked awaited.blank settled' written shape answered settled grows rfl
    | false =>
      subst kept
      refine renewed.retried awaited.builtin checked settled' written shape answered (both ?_) rfl
      exact grows.isSome (by rw [written,if_pos rfl]; rfl)

theorem Runs.renewed (ready : Open environment s rest) (run : Runs environment s rest history last)
    (shape : s.tree.SameShape last'.tree)
    (settled : ∀ a ∈ history.map Attempt.assignment, Settled environment last a ∧ Settled environment' last' a)
    (both : ∀ key, (last.tree.stored? key).isSome = true → (last'.tree.stored? key).isSome = true)
    {u : Refreshing} (renewed : Renewed last last' s.tree u.state) :
    Renewed last last' last.tree
      ((history.filterMap Attempt.retained?).foldl (Refreshing.step environment' none) u).state := by
  induction run generalizing u with
  | empty => exact renewed
  | @concluded s s' last a rest ending later step next ih =>
    obtain ⟨own,own'⟩ := settled a List.mem_cons_self
    have after := step.renewed ready.head next.grows shape own own' (both _) renewed
    have split : (⟨a,ending⟩ :: later).filterMap Attempt.retained? =
        (Attempt.retained? ⟨a,ending⟩).toList ++ later.filterMap Attempt.retained? := by
      rw [List.filterMap_cons]
      cases Attempt.retained? ⟨a,ending⟩ <;> rfl
    rw [split,List.foldl_append]
    exact ih (ready.concluded step) (step.grows.shape.symm.trans shape)
      (fun b member => settled b (List.mem_cons_of_mem _ member)) both after
  | parked checked answered next ih => exact ih (ready.parked checked answered) shape settled both renewed
  | taken first next ih => exact ih (ready.taken first).1 shape settled both renewed
  | @abandoned s some stuck =>
    rw [Recorded.abandoned_retained]
    exact renewed.same fun key => abandon_stored ..

end

theorem refresh_leaves (environment : Environment) (root : Option Nat) (s : Resolution) :
    let done := s.retained.foldl (Refreshing.step environment root) ⟨{ s with issues := [] },[],[]⟩
    (∀ key, (s.refresh environment root).2.tree.slot? key = done.state.tree.slot? key) ∧
      (s.refresh environment root).2.failures = done.state.failures :=
  ⟨Tree.slot_setValids _ _ _,rfl⟩

-- The two loads, and the refresh of the one with the variables of the other.
section
variable {environment environment' : Environment} {t : Tree} {assignments : List Assignment}
  (first : Open environment (.start t) assignments) (first' : Open environment' (.start t) assignments)
  {last last' : Resolution} {history history' : List Attempt}
  (run : Runs environment (.start t) assignments history last)
  (run' : Runs environment' (.start t) assignments history' last')
include first run

theorem Runs.known_fine {key : Key} (has : (t.stored? key).isSome = true) : key ∉ last.failures := by
  rw [run.failing_iff first]
  rintro ⟨e,present,_,rfl⟩
  have known := run.once.mem_iff.mp (List.mem_map.mpr ⟨e,present,rfl⟩)
  have blank := (first.ready e.assignment known).blank
  change t.stored? e.target = none at blank
  rw [blank] at has
  cases has

include first' run'

theorem Runs.renewed_start {u : Resolution} (tree : u.tree = last.tree) (failures : u.failures = last.failures) :
    Renewed last last' t u := by
  refine ⟨?_,?_,?_,?_⟩
  · rw [tree]
    exact run'.grows.shape.symm.trans run.grows.shape
  · intro key has
    obtain ⟨content,known⟩ := Option.isSome_iff_exists.mp has
    rw [tree,failures,run.grows.kept key content known,run'.grows.kept key content known]
    exact ⟨rfl,iff_of_false (run.known_fine first has) (run'.known_fine first' has)⟩
  · exact fun key value has => run'.grows.kept key _ has
  · intro key _
    rw [tree,failures]
    exact ⟨rfl,Iff.rfl⟩

theorem Runs.blank_both {key : Key} (blank : last.tree.stored? key = none) (blank' : last'.tree.stored? key = none) :
    last.tree.slot? key = last'.tree.slot? key ∧ (key ∈ last.failures ↔ key ∈ last'.failures) := by
  refine ⟨(run.blank_slot blank).trans (run'.blank_slot blank').symm,?_⟩
  by_cases own : key ∈ assignments.map Assignment.target
  · obtain ⟨a,member,rfl⟩ := List.mem_map.mp own
    rw [(run.settled first member).failing,(run'.settled first' member).failing,blank,blank']
  · have nobody : ∀ {history : List Attempt} {environment : Environment} {last : Resolution},
        Runs environment (.start t) assignments history last → ¬∃ e ∈ history, e.fails = true ∧ e.target = key := by
      rintro history environment last run ⟨e,present,_,rfl⟩
      exact own (List.mem_map.mpr ⟨_,run.once.mem_iff.mp (List.mem_map.mpr ⟨e,present,rfl⟩),rfl⟩)
    rw [run.failing_iff first,run'.failing_iff first']
    exact iff_of_false (nobody run) (nobody run')

end

theorem loaded_refreshed {environment environment' : Environment} {t : Tree} {assignments : List Assignment}
    (first : Open environment (.start t) assignments) (first' : Open environment' (.start t) assignments)
    (same : ∀ key, ((loaded environment t assignments).2.tree.stored? key).isSome =
      ((loaded environment' t assignments).2.tree.stored? key).isSome) :
    let refreshed := ((loaded environment t assignments).2.refresh environment' none).2
    let anew := (loaded environment' t assignments).2
    (∀ key, (refreshed.tree.slot? key).map (fun entry => (entry.value,entry.deterministic)) =
      (anew.tree.slot? key).map fun entry => (entry.value,entry.deterministic)) ∧
    ∀ key, key ∈ refreshed.failures ↔ key ∈ anew.failures := by
  intro refreshed anew
  obtain ⟨last,run,_,tree,_,retained,failures,_⟩ := first.loaded environment
  obtain ⟨last',run',_,tree',_,_,failures',_⟩ := first'.loaded environment'
  rw [tree,tree'] at same
  have order : (loaded environment t assignments).2.retained =
      (history environment (.start t) assignments).filterMap Attempt.retained? :=
    retained.trans ((run.recorded first).retained)
  have renewed : Renewed last last' last.tree ((loaded environment t assignments).2.retained.foldl
      (Refreshing.step environment' none) ⟨{ (loaded environment t assignments).2 with issues := [] },[],[]⟩).state := by
    rw [order]
    apply run.renewed first run'.grows.shape
    · exact fun a member => ⟨run.settled first (run.once.mem_iff.mp member),
        run'.settled first' (run.once.mem_iff.mp member)⟩
    · exact fun key has => same key ▸ has
    · exact run.renewed_start first first' run' tree failures
  have leaves := refresh_leaves environment' none (loaded environment t assignments).2
  rw [show anew.tree = last'.tree from tree',show anew.failures = last'.failures from failures']
  generalize (loaded environment t assignments).2.retained.foldl _ _ = u at renewed leaves
  obtain ⟨slots,fails⟩ := leaves
  change ∀ key, refreshed.tree.slot? key = _ at slots
  change refreshed.failures = _ at fails
  refine ⟨?_,?_⟩
  · intro key
    rw [slots]
    rcases known : last'.tree.stored? key with _ | ⟨value,deterministic⟩
    · have blank : last.tree.stored? key = none := by simpa [known] using same key
      rw [(renewed.left key blank).1,(run.blank_both first first' run' blank known).1]
    · have has : (last.tree.stored? key).isSome = true := by rw [same,known]; rfl
      rw [Tree.slot_stored known,Tree.slot_stored ((renewed.done key has).1.trans known)]
  · intro key
    rw [fails]
    cases known : last'.tree.stored? key with
    | none =>
      have blank : last.tree.stored? key = none := by simpa [known] using same key
      rw [(renewed.left key blank).2,(run.blank_both first first' run' blank known).2]
    | some content => exact (renewed.done key (by rw [same,known]; rfl)).2

end DeferredAttributes
