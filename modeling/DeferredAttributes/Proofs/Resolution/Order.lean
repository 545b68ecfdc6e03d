import DeferredAttributes.Proofs.Resolution.Unique

-- The order in which the attributes come in does not matter. Two runs leave trees that lie below
-- each other, give up the same circle, and so end every attempt alike.
namespace DeferredAttributes
open Resolution

section
variable {environment : Environment} {s s' last last' : Resolution} {rest rest' : List Assignment}
  {history history' : List Attempt} {a : Assignment} {ending : Ending}

theorem Concludes.blank_slot (step : Concludes environment s rest a ending s') {key : Key}
    (blank : s'.tree.stored? key = none) : s'.tree.slot? key = s.tree.slot? key := by
  cases step with
  | malformed | failed | lost => exact Tree.slot_setValid ..
  | executed checked answered found empty =>
    rw [succeed_stored,Tree.stored_put found] at blank
    split at blank
    · cases blank
    · rename_i other
      rw [succeed_tree]
      split
      · rw [Tree.slot_setValid,Tree.slot_put found,if_neg other]
      · rw [Tree.slot_put found,if_neg other]

theorem Runs.blank_slot (run : Runs environment s rest history last) {key : Key}
    (blank : last.tree.stored? key = none) : last.tree.slot? key = s.tree.slot? key := by
  induction run with
  | empty => rfl
  | concluded step next ih => rw [ih blank,step.blank_slot (next.grows.none blank)]
  | parked checked answered next ih => exact ih blank
  | taken first next ih => exact ih blank
  | abandoned some stuck => exact abandon_slot ..

theorem Assignment.answer_equal {t t' : Tree} (builtin : a.resolver.builtin = true) (there : t.Extends t')
    (back : t'.Extends t) : a.answer environment t = a.answer environment t' := by
  rcases answer_stable builtin there with same | ⟨key,stopped,member⟩
  · exact same
  · have blank := (answer_waits builtin stopped).2
    have impossible := back.isSome member
    rw [blank] at impossible
    cases impossible

theorem Tree.Extends.stored_equal {t t' : Tree} (there : t.Extends t') (back : t'.Extends t) (key : Key) :
    t.stored? key = t'.stored? key := by
  cases found : t'.stored? key with
  | some content => exact back.kept key content found
  | none => exact there.none found

theorem Assignment.verdict_equal {t t' : Tree} {circle circle' : List Key} (builtin : a.resolver.builtin = true)
    (there : t.Extends t') (back : t'.Extends t) (same : ∀ key, key ∈ circle ↔ key ∈ circle') :
    a.verdict environment t circle = a.verdict environment t' circle' := by
  unfold verdict
  simp only [answer_equal builtin there back,there.shape.displayKey,same]

end

-- Two runs from one state over the same attributes in two orders.
section
variable {environment : Environment} {s last last' : Resolution} {rest rest' : List Assignment}
  {history history' : List Attempt}
  (ready : Open environment s rest) (run : Runs environment s rest history last)
  (ready' : Open environment s rest') (run' : Runs environment s rest' history' last') (same : rest.Perm rest')
include ready run ready' run' same

omit ready ready' in
theorem Runs.assignments_perm : (history.map Attempt.assignment).Perm (history'.map Attempt.assignment) :=
  run.once.trans ((same.append_left _).trans run'.once.symm)

theorem Runs.within : last.tree.Extends last'.tree := by
  refine run.least ready ?_ run'.grows
  intro a member
  exact (run'.truthful ready').closed a ((run.assignments_perm run' same).mem_iff.mp member)

theorem Runs.circle_supported :
    Supported environment last'.tree history' ((abandonedOf history).map Assignment.target) := by
  have there := run.within ready ready' run' same
  have back := run'.within ready' ready run same.symm
  have assignments := run.assignments_perm run' same
  intro e present among
  obtain ⟨a,given,target⟩ := List.mem_map.mp among
  have ended := mem_abandonedOf.mp given
  have known : a ∈ history.map Attempt.assignment := List.mem_map.mpr ⟨_,ended,rfl⟩
  obtain ⟨e',present',own⟩ := List.mem_map.mp (assignments.mem_iff.mp known)
  have equal : e' = e := ready'.only run' present' present (by rw [Attempt.target,own,target])
  rw [← equal,own]
  obtain ⟨later,_,upheld⟩ := (run.truthful ready).mem ended
  cases upheld with
  | @abandoned key checked answered member last blank =>
    refine ⟨checked,key,member,?_,?_⟩
    · rw [← Assignment.answer_equal (ready.builtin run known) there back]
      exact answered
    · obtain ⟨b,given',rfl⟩ := List.mem_map.mp member
      have known' : b ∈ history.map Attempt.assignment := List.mem_map.mpr ⟨_,mem_abandonedOf.mp given',rfl⟩
      obtain ⟨e'',present'',own'⟩ := List.mem_map.mp (assignments.mem_iff.mp known')
      exact List.mem_map.mpr ⟨e'',present'',by rw [Attempt.target,own']⟩

theorem Runs.circle_within {key : Key} (member : key ∈ (abandonedOf history).map Assignment.target) :
    key ∈ (abandonedOf history').map Assignment.target := by
  have support := run.circle_supported ready ready' run' same
  obtain ⟨a,given,target⟩ := List.mem_map.mp member
  have known : a ∈ history.map Attempt.assignment := List.mem_map.mpr ⟨_,mem_abandonedOf.mp given,rfl⟩
  obtain ⟨e,present,own⟩ := List.mem_map.mp ((run.assignments_perm run' same).mem_iff.mp known)
  obtain ⟨before,later,place⟩ := List.append_of_mem present
  have ending := (run'.truthful ready').supported support place (by rw [Attempt.target,own,target]; exact member)
  refine List.mem_map.mpr ⟨a,mem_abandonedOf.mpr ?_,target⟩
  obtain ⟨b,ended⟩ := e
  cases own
  cases ending
  exact present

theorem Runs.history_perm : history.Perm history' := by
  have there := run.within ready ready' run' same
  have back := run'.within ready' ready run same.symm
  have circle : ∀ key, key ∈ (abandonedOf history).map Assignment.target ↔
      key ∈ (abandonedOf history').map Assignment.target :=
    fun _ => ⟨run.circle_within ready ready' run' same,run'.circle_within ready' ready run same.symm⟩
  rw [run.verdicts ready,run'.verdicts ready']
  have alike : (history'.map Attempt.assignment).map (fun a =>
        (⟨a,a.verdict environment last'.tree ((abandonedOf history').map Assignment.target)⟩ : Attempt)) =
      (history'.map Attempt.assignment).map fun a =>
        ⟨a,a.verdict environment last.tree ((abandonedOf history).map Assignment.target)⟩ := by
    apply List.map_congr_left
    intro a member
    rw [Assignment.verdict_equal (ready'.builtin run' member) back there fun key => (circle key).symm]
  rw [alike]
  exact (run.assignments_perm run' same).map _

theorem Runs.slot_equal (key : Key) :
    (last.tree.slot? key).map (fun entry => (entry.value,entry.deterministic)) =
      (last'.tree.slot? key).map fun entry => (entry.value,entry.deterministic) := by
  have equal := (run.within ready ready' run' same).stored_equal (run'.within ready' ready run same.symm) key
  cases found : last.tree.stored? key with
  | none =>
    rw [run.blank_slot found,run'.blank_slot (equal ▸ found)]
  | some content =>
    rw [Tree.slot_stored found,Tree.slot_stored (equal ▸ found)]

theorem Runs.valid_equal (i : Nat) : (last.tree.node i).valid = (last'.tree.node i).valid := by
  have members := run.history_perm ready ready' run' same
  rw [Bool.eq_iff_iff,(run.recorded ready).valid,(run'.recorded ready').valid]
  simp only [members.mem_iff]

theorem Runs.failed_perm :
    (history.filterMap (Attempt.issue? last.tree)).Perm (history'.filterMap (Attempt.issue? last'.tree)) := by
  have shape := (run.within ready ready' run' same).shape
  have equal : Attempt.issue? last'.tree = Attempt.issue? last.tree := funext fun e => e.issue_shape shape
  rw [equal]
  exact (run.history_perm ready ready' run' same).filterMap _

theorem Runs.circle_perm :
    List.Forall₂ List.Perm ((circleIssue environment last.tree history).filterMap Issue.circle?)
      ((circleIssue environment last'.tree history').filterMap Issue.circle?) := by
  have there := run.within ready ready' run' same
  have back := run'.within ready' ready run same.symm
  have given : (abandonedOf history).Perm (abandonedOf history') :=
    (run.history_perm ready ready' run' same).filterMap _
  by_cases none : abandonedOf history = []
  · have none' : abandonedOf history' = [] := (none ▸ given).nil_eq.symm
    simp [circleIssue,none,none']
  · have some' : abandonedOf history' ≠ [] := fun none' => none (none' ▸ given).eq_nil
    rw [circleIssue_given none,circleIssue_given some']
    refine .cons ?_ .nil
    have alike : (abandonedOf history').map (fun a =>
          (last'.tree.displayKey a.target,(a.waitsFor environment last'.tree).map last'.tree.displayKey)) =
        (abandonedOf history').map fun a =>
          (last.tree.displayKey a.target,(a.waitsFor environment last.tree).map last.tree.displayKey) := by
      apply List.map_congr_left
      intro a member
      have known : a ∈ history'.map Attempt.assignment := List.mem_map.mpr ⟨_,mem_abandonedOf.mp member,rfl⟩
      have answers : a.answer environment last'.tree = a.answer environment last.tree :=
        Assignment.answer_equal (ready'.builtin run' known) back there
      have names : last'.tree.displayKey = last.tree.displayKey := funext there.shape.displayKey
      unfold Assignment.waitsFor
      rw [answers,names]
    rw [alike]
    exact given.map _

end

theorem loaded_order (environment : Environment) {t : Tree} {assignments others : List Assignment}
    (ready : ∀ a ∈ assignments, a.Ready t) (distinct : (assignments.map Assignment.target).Nodup)
    (same : assignments.Perm others) :
    let one := loaded environment t assignments
    let two := loaded environment t others
    (∀ key, (one.2.tree.slot? key).map (fun entry => (entry.value,entry.deterministic)) =
      (two.2.tree.slot? key).map fun entry => (entry.value,entry.deterministic)) ∧
    (∀ i, (one.2.tree.node i).valid = (two.2.tree.node i).valid) ∧
    (one.1.filter Issue.isFailed).Perm (two.1.filter Issue.isFailed) ∧
    List.Forall₂ List.Perm (one.1.filterMap Issue.circle?) (two.1.filterMap Issue.circle?) ∧
    one.2.retained.Perm two.2.retained := by
  intro one two
  have ready' : ∀ a ∈ others, a.Ready t := fun a member => ready a (same.mem_iff.mpr member)
  have distinct' : (others.map Assignment.target).Nodup := (same.map _).nodup_iff.mp distinct
  obtain ⟨last,run,issues,tree,_,retained,_⟩ := loaded_runs environment ready distinct
  obtain ⟨last',run',issues',tree',_,retained',_⟩ := loaded_runs environment ready' distinct'
  have first := start_open environment ready distinct
  have second := start_open environment ready' distinct'
  refine ⟨?_,?_,?_,?_,?_⟩
  · intro key
    rw [tree,tree']
    exact run.slot_equal first second run' same key
  · intro i
    rw [tree,tree']
    exact run.valid_equal first second run' same i
  · rw [issues,issues',run.issues_failed first,run'.issues_failed second]
    exact run.failed_perm first second run' same
  · rw [issues,issues',run.issues_circle first,run'.issues_circle second]
    exact run.circle_perm first second run' same
  · rw [retained,retained',(run.recorded first).retained,(run'.recorded second).retained]
    exact (run.history_perm first second run' same).filterMap _

def crossing : List Assignment :=
  [("double","@base * 2"),("here","@there"),("base","3"),("there","@here")].map fun entry =>
    ⟨⟨0,entry.1⟩,entry.2,.expression .decimal,none,false⟩

def crossingTree : Tree :=
  crossing.foldl (fun t a => t.declare 0 a.target.name a.resolver.type) (.new .blank)

theorem loaded_order_crossing :
    (∀ a ∈ crossing, a.Ready crossingTree) ∧ (crossing.map Assignment.target).Nodup ∧
      (∀ key, ((loaded .empty crossingTree crossing).2.tree.slot? key).map (fun entry => (entry.value,entry.deterministic)) =
        ((loaded .empty crossingTree crossing.reverse).2.tree.slot? key).map fun entry =>
          (entry.value,entry.deterministic)) ∧
      List.Forall₂ List.Perm ((loaded .empty crossingTree crossing).1.filterMap Issue.circle?)
        ((loaded .empty crossingTree crossing.reverse).1.filterMap Issue.circle?) := by
  have ready : ∀ a ∈ crossing, a.Ready crossingTree := by
    intro a member
    simp only [crossing,List.map_cons,List.map_nil,List.mem_cons,List.not_mem_nil,or_false] at member
    rcases member with rfl | rfl | rfl | rfl <;> exact ⟨rfl,by decide,rfl⟩
  have distinct : (crossing.map Assignment.target).Nodup := by decide
  obtain ⟨values,_,_,circles,_⟩ := loaded_order .empty ready distinct (List.reverse_perm crossing).symm
  exact ⟨ready,distinct,values,circles⟩

end DeferredAttributes
