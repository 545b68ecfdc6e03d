import DeferredAttributes.Proofs.Resolution.Run

-- What a run leaves behind, read off the attempts that ended in it: the values, the issues,
-- the failures, the flags, and what a refresh will run again.
namespace DeferredAttributes
open Resolution

def abandonedOf (history : List Attempt) : List Assignment :=
  history.filterMap fun e => match e.ending with
    | .abandoned => some e.assignment
    | _ => none

def Assignment.waitsFor (environment : Environment) (t : Tree) (a : Assignment) : List Key :=
  match a.answer environment t with
  | .error (.blocked key) => [key]
  | _ => []

def circleIssue (environment : Environment) (t : Tree) (history : List Attempt) : Report :=
  match abandonedOf history with
  | [] => []
  | given => [.circularDependency (given.map fun a =>
      (t.displayKey a.target,(a.waitsFor environment t).map t.displayKey))]

structure Recorded (s s' : Resolution) (history : List Attempt) : Prop where
  shape : s.tree.SameShape s'.tree
  failures : ∀ key, key ∈ s'.failures ↔ key ∈ s.failures ∨ ∃ e ∈ history, e.fails = true ∧ e.target = key
  retained : s'.retained = s.retained ++ history.filterMap Attempt.retained?
  valid : ∀ i, (s'.tree.node i).valid = true ↔
    (s.tree.node i).valid = true ∧ ∀ e ∈ history, e.fails = true → e.target.node ≠ i
  broken : s'.broken = s.broken

theorem mem_addNew {α : Type} [DecidableEq α] (items : List α) (item other : α) :
    other ∈ addNew items item ↔ other ∈ items ∨ other = item := by
  unfold addNew
  split <;> simp_all

theorem mem_foldl_addNew {α : Type} [DecidableEq α] (more items : List α) (item : α) :
    item ∈ more.foldl addNew items ↔ item ∈ items ∨ item ∈ more := by
  induction more generalizing items with
  | nil => simp
  | cons first rest ih =>
    rw [List.foldl_cons,ih,mem_addNew,List.mem_cons,or_assoc]

theorem Resolution.failing_iff (s : Resolution) (node : Nat) :
    s.failing node = true ↔ ∃ key ∈ s.failures, key.node = node := by
  unfold failing
  rw [List.any_eq_true]
  simp only [decide_eq_true_iff]

theorem Assignment.Awaited.bound {t : Tree} {a : Assignment} (awaited : a.Awaited t) : a.target.node < t.nodes.size := by
  obtain ⟨entry,found,_⟩ := awaited.entry
  exact Tree.lt_size_of_find found

theorem Tree.valid_setValid (t : Tree) {id : Nat} (bound : id < t.nodes.size) (i : Nat) :
    ((t.setValid id false).node i).valid = true ↔ (t.node i).valid = true ∧ id ≠ i := by
  unfold setValid
  rw [node_modify]
  by_cases same : i = id
  · simp [same,bound]
  · simp [same,Ne.symm same]

theorem Tree.valid_setValids (nodes : List Nat) (flag : Nat → Bool) (t : Tree) (i : Nat) :
    ((nodes.foldl (fun t node => t.setValid node (flag node)) t).node i).valid =
      if i ∈ nodes ∧ i < t.nodes.size then flag i else (t.node i).valid := by
  induction nodes generalizing t with
  | nil => simp
  | cons first rest ih =>
    rw [List.foldl_cons,ih,(SameShape.setValid ..).size,setValid,node_modify]
    by_cases bound : i < t.nodes.size
    · by_cases here : i = first
      · simp [here,here ▸ bound]
      · simp [here,bound]
    · have outside : ¬(i = first ∧ first < t.nodes.size) := fun both => bound (both.1 ▸ both.2)
      simp [bound,outside]

theorem Tree.shape_setValids (nodes : List Nat) (flag : Nat → Bool) (t : Tree) :
    t.SameShape (nodes.foldl (fun t node => t.setValid node (flag node)) t) := by
  induction nodes generalizing t with
  | nil => exact .refl t
  | cons first rest ih => exact (SameShape.setValid ..).trans (ih _)

theorem Tree.slot_setValids (nodes : List Nat) (flag : Nat → Bool) (t : Tree) (key : Key) :
    (nodes.foldl (fun t node => t.setValid node (flag node)) t).slot? key = t.slot? key := by
  induction nodes generalizing t with
  | nil => rfl
  | cons first rest ih => rw [List.foldl_cons,ih,slot_setValid]

theorem Resolution.abandon_keeps (s : Resolution) (kept : Tree → Prop)
    (step : ∀ t id, kept t → kept (t.setValid id false)) (pending : List Parked) (before : kept s.tree) :
    kept (s.abandon pending).tree := by
  change kept (pending.foldl (fun t p => t.setValid p.assignment.target.node false) s.tree)
  generalize s.tree = t at before
  induction pending generalizing t with
  | nil => exact before
  | cons p rest ih => exact ih _ (step t _ before)

theorem Resolution.abandon_extends (s : Resolution) (pending : List Parked) :
    s.tree.Extends (s.abandon pending).tree :=
  s.abandon_keeps s.tree.Extends (fun _ _ more => more.trans (.setValid ..)) pending (.refl _)

theorem Resolution.abandon_slot (s : Resolution) (pending : List Parked) (key : Key) :
    (s.abandon pending).tree.slot? key = s.tree.slot? key :=
  s.abandon_keeps (fun t => t.slot? key = s.tree.slot? key)
    (fun t id same => (t.slot_setValid id false key).trans same) pending rfl

theorem Resolution.abandon_stored (s : Resolution) (pending : List Parked) (key : Key) :
    (s.abandon pending).tree.stored? key = s.tree.stored? key := by
  rw [Tree.stored_slot,Tree.stored_slot,abandon_slot]

namespace Recorded

theorem quiet (s : Resolution) (pending : List Parked) : Recorded s { s with pending := pending } [] :=
  ⟨.refl _,by simp,by simp,by simp,rfl⟩

theorem append {s m s' : Resolution} {one two : List Attempt} (left : Recorded s m one)
    (right : Recorded m s' two) : Recorded s s' (one ++ two) := by
  refine ⟨left.shape.trans right.shape,?_,?_,?_,right.broken.trans left.broken⟩
  · intro key
    rw [right.failures,left.failures]
    constructor
    · rintro ((old | ⟨e,member,facts⟩) | ⟨e,member,facts⟩)
      · exact .inl old
      · exact .inr ⟨e,List.mem_append_left _ member,facts⟩
      · exact .inr ⟨e,List.mem_append_right _ member,facts⟩
    · rintro (old | ⟨e,member,facts⟩)
      · exact .inl (.inl old)
      · rcases List.mem_append.mp member with first | second
        · exact .inl (.inr ⟨e,first,facts⟩)
        · exact .inr ⟨e,second,facts⟩
  · rw [right.retained,left.retained,List.filterMap_append,List.append_assoc]
  · intro i
    rw [right.valid,left.valid,and_assoc]
    apply and_congr_right
    intro _
    constructor
    · rintro ⟨first,second⟩ e member
      rcases List.mem_append.mp member with left | right
      · exact first e left
      · exact second e right
    · intro all
      exact ⟨fun e member => all e (List.mem_append_left _ member),
        fun e member => all e (List.mem_append_right _ member)⟩

theorem fail {s : Resolution} {a : Assignment} (bound : a.target.node < s.tree.nodes.size) (error : ResolveError)
    {ending : Ending} (fails : Attempt.fails ⟨a,ending⟩ = true) (kept : Attempt.retained? ⟨a,ending⟩ = none) :
    Recorded s (s.fail a error) [⟨a,ending⟩] := by
  refine ⟨.setValid ..,?_,?_,?_,rfl⟩
  · intro key
    change key ∈ addNew s.failures a.target ↔ _
    rw [mem_addNew]
    simp only [List.mem_singleton,exists_eq_left,fails,true_and,Attempt.target]
    exact or_congr_right eq_comm
  · change s.retained = _
    rw [List.filterMap_cons,kept]
    simp
  · intro i
    rw [fail_tree,Tree.valid_setValid _ bound]
    simp [fails,Attempt.target]

theorem valid_put {t : Tree} {key : Key} {entry : Entry}
    (found : (t.node key.node).entries.find? key.name = some entry) (value : Value) (deterministic : Bool) (i : Nat) :
    ((t.put key entry value deterministic).node i).valid = (t.node i).valid := by
  by_cases same : i = key.node
  · subst same
    rw [Tree.node_put_self found]
  · rw [Tree.node_put_other found same]

theorem succeed_failures (s : Resolution) (a : Assignment) (done : Executed) :
    (s.succeed a done).failures = if done.rejected.isSome = true then addNew s.failures a.target else s.failures := by
  unfold succeed
  cases done.rejected <;> cases done.deterministic <;> rfl

theorem succeed_retained (s : Resolution) (a : Assignment) (done : Executed) :
    (s.succeed a done).retained = if done.deterministic = true then s.retained else s.retained ++ [a] := by
  unfold succeed
  cases done.rejected <;> cases done.deterministic <;> rfl

theorem executed {s : Resolution} {a : Assignment} {entry : Entry}
    (found : (s.tree.node a.target.node).entries.find? a.target.name = some entry) (value : Value)
    (done : Executed) :
    Recorded s ({ s with tree := s.tree.put a.target entry value done.deterministic }.succeed a done)
      [⟨a,.executed done⟩] := by
  have shape := Tree.shape_put found value done.deterministic
  have bound : a.target.node < (s.tree.put a.target entry value done.deterministic).nodes.size := by
    rw [shape.size]
    exact Tree.lt_size_of_find found
  refine ⟨shape.trans (succeed_extends { s with tree := _ } a done).shape,?_,?_,?_,?_⟩
  · intro key
    rw [succeed_failures]
    simp only [List.mem_singleton,exists_eq_left,Attempt.fails,Attempt.target]
    cases done.rejected with
    | none => simp
    | some reason =>
      simp only [Option.isSome_some,if_true,true_and,mem_addNew]
      exact or_congr_right eq_comm
  · rw [succeed_retained]
    cases kept : done.deterministic <;> simp [Attempt.retained?,kept]
  · intro i
    rw [succeed_tree]
    cases rejected : done.rejected with
    | none =>
      simp [Attempt.fails,rejected,valid_put found]
    | some reason =>
      simp only [Option.isSome_some,if_true]
      rw [Tree.valid_setValid _ bound]
      simp [Attempt.fails,Attempt.target,rejected,valid_put found]
  · unfold succeed
    cases done.rejected <;> cases done.deterministic <;> rfl

theorem concluded {environment : Environment} {s s' : Resolution} {rest : List Assignment} {a : Assignment}
    {ending : Ending} (ready : a.Awaited s.tree) (step : Concludes environment s rest a ending s') :
    Recorded s s' [⟨a,ending⟩] := by
  cases step with
  | malformed | failed | lost => exact fail ready.bound _ rfl rfl
  | executed checked answered found blank => exact executed found _ ⟨_,_⟩

theorem abandoned_retained (pending : List Parked) :
    (pending.map fun p => (⟨p.assignment,.abandoned⟩ : Attempt)).filterMap Attempt.retained? = [] := by
  rw [List.filterMap_eq_nil_iff]
  intro e member
  obtain ⟨p,_,rfl⟩ := List.mem_map.mp member
  rfl

theorem abandoned {s : Resolution} (pending : List Parked)
    (bound : ∀ key ∈ Parked.targets pending, key.node < s.tree.nodes.size) :
    Recorded s (s.abandon pending) (pending.map fun p => ⟨p.assignment,.abandoned⟩) := by
  refine ⟨(s.abandon_extends pending).shape,?_,?_,?_,rfl⟩
  · intro key
    change key ∈ pending.foldl (fun keys p => addNew keys p.assignment.target) s.failures ↔ _
    rw [← List.foldl_map,mem_foldl_addNew]
    apply or_congr_right
    constructor
    · intro member
      obtain ⟨p,present,rfl⟩ := List.mem_map.mp member
      exact ⟨_,List.mem_map.mpr ⟨p,present,rfl⟩,rfl,rfl⟩
    · rintro ⟨e,member,_,rfl⟩
      obtain ⟨p,present,rfl⟩ := List.mem_map.mp member
      exact List.mem_map.mpr ⟨p,present,rfl⟩
  · change s.retained = _
    rw [abandoned_retained,List.append_nil]
  · intro i
    change ((pending.foldl (fun t p => t.setValid p.assignment.target.node false) s.tree).node i).valid = true ↔ _
    rw [← List.foldl_map (f := fun p : Parked => p.assignment.target.node)
      (g := fun (t : Tree) node => t.setValid node false),Tree.valid_setValids _ fun _ => false]
    by_cases given : ∃ p ∈ pending, p.assignment.target.node = i
    · obtain ⟨p,member,here⟩ := given
      have inside : i < s.tree.nodes.size := here ▸ bound _ (List.mem_map.mpr ⟨p,member,rfl⟩)
      rw [if_pos ⟨List.mem_map.mpr ⟨p,member,here⟩,inside⟩]
      constructor
      · intro impossible
        cases impossible
      · intro both
        exact absurd here (both.2 _ (List.mem_map.mpr ⟨p,member,rfl⟩) rfl)
    · have other : ¬(i ∈ pending.map (fun p => p.assignment.target.node) ∧ i < s.tree.nodes.size) :=
        fun both => given (List.mem_map.mp both.1)
      rw [if_neg other]
      refine (and_iff_left ?_).symm
      intro e member _ here
      obtain ⟨p,present,rfl⟩ := List.mem_map.mp member
      exact given ⟨p,present,here⟩

end Recorded

theorem Parked.takeReady_none {pending : List Parked} (stuck : takeReady? pending = none) :
    ∀ p ∈ pending, p.blockers ≠ [] := by
  induction pending with
  | nil => intro p member; cases member
  | cons q rest ih =>
    unfold takeReady? at stuck
    split at stuck
    · cases stuck
    · rename_i waits
      intro p member
      rcases List.mem_cons.mp member with rfl | later
      · intro free
        exact waits (List.isEmpty_iff.mpr free)
      · exact ih (Option.map_eq_none_iff.mp stuck) p later

section
variable {environment : Environment} {s last : Resolution} {rest : List Assignment} {history : List Attempt}

theorem Open.bound (ready : Open environment s rest) : ∀ key ∈ Parked.targets s.pending, key.node < s.tree.nodes.size := by
  intro key member
  obtain ⟨p,present,rfl⟩ := List.mem_map.mp member
  exact (ready.ready _ (List.mem_append_left _ (List.mem_map.mpr ⟨p,present,rfl⟩))).bound

-- Where nothing is ready, everything waits for something else that is parked.
theorem Open.stuck (ready : Open environment s [])
    (stuck : Parked.takeReady? (Parked.settled s.pending) = none) {p : Parked} (member : p ∈ s.pending) :
    ∃ key ∈ Parked.targets s.pending, (p.settle (Parked.targets s.pending)).blockers = [key] ∧
      p.assignment.resolver.check p.assignment.raw = .ok () ∧
      p.assignment.answer environment s.tree = .error (.blocked key) := by
  have settled : p.settle (Parked.targets s.pending) ∈ Parked.settled s.pending := List.mem_map.mpr ⟨p,member,rfl⟩
  have waits := Parked.takeReady_none stuck _ settled
  obtain ⟨checked,free | ⟨key,one,reason⟩⟩ := (ready.waits p member).settle (Parked.targets s.pending)
  · exact absurd free waits
  · have parked : key ∈ Parked.targets s.pending := by
      have among : key ∈ (p.settle (Parked.targets s.pending)).blockers := by
        rw [one]
        exact List.mem_singleton_self key
      simpa using (List.mem_filter.mp among).2
    refine ⟨key,parked,one,checked,?_⟩
    rcases reason with answered | has
    · exact answered
    · obtain ⟨q,present,rfl⟩ := List.mem_map.mp parked
      have blank := (ready.ready q.assignment (List.mem_append_left _ (List.mem_map.mpr ⟨q,present,rfl⟩))).blank
      rw [blank] at has
      cases has

namespace Runs

theorem grows (run : Runs environment s rest history last) : s.tree.Extends last.tree := by
  induction run with
  | empty => exact .refl _
  | concluded step next ih => exact step.grows.trans ih
  | parked checked answered next ih => exact ih
  | taken first next ih => exact ih
  | abandoned some stuck => exact abandon_extends ..

theorem pending (run : Runs environment s rest history last) : last.pending = [] := by
  induction run with
  | empty none => exact none
  | concluded step next ih => exact ih
  | parked checked answered next ih => exact ih
  | taken first next ih => exact ih
  | abandoned some stuck => rfl

theorem once (run : Runs environment s rest history last) :
    (history.map Attempt.assignment).Perm (s.pending.map Parked.assignment ++ rest) := by
  induction run with
  | empty none => simp [none]
  | @concluded s s' last a rest ending later step next ih =>
    rw [step.pending] at ih
    exact (ih.cons a).trans List.perm_middle.symm
  | parked checked answered next ih => simpa using ih
  | @taken s last p others later first next ih =>
    have moved := (Parked.takeReady_perm first).1.map Parked.assignment
    have same : (Parked.settled s.pending).map Parked.assignment = s.pending.map Parked.assignment := by
      simp [Parked.settled,Parked.settle]
    rw [same] at moved
    rw [List.append_nil]
    exact ih.trans ((List.perm_append_singleton _ _).trans moved.symm)
  | @abandoned s some stuck =>
    rw [List.append_nil,List.map_map]
    exact .refl _

theorem targets (run : Runs environment s rest history last) :
    (history.map Attempt.target).Perm (s.openKeys rest) := by
  have keys := run.once.map Assignment.target
  rw [List.map_map,List.map_append,List.map_map] at keys
  exact keys

theorem untouched (run : Runs environment s rest history last) {key : Key} (other : key ∉ s.openKeys rest) :
    last.tree.stored? key = s.tree.stored? key := by
  induction run with
  | empty => rfl
  | @concluded s s' last a rest ending later step next ih =>
    have keys : s.openKeys (a :: rest) = Parked.targets s.pending ++ (a.target :: rest.map Assignment.target) := rfl
    rw [keys,List.perm_middle.mem_iff,List.mem_cons,not_or] at other
    have same : s'.openKeys rest = s.openKeys rest := by
      unfold openKeys
      rw [step.pending]
    rw [ih (by rw [same]; exact other.2),step.untouched other.1]
  | parked checked answered next ih => exact ih (by simpa [openKeys,Parked.targets] using other)
  | @taken s last p others later first next ih =>
    apply ih
    intro member
    apply other
    rw [openKeys,List.map_nil,List.append_nil,← Parked.targets_settled]
    apply ((Parked.takeReady_perm first).1.map fun q : Parked => q.assignment.target).mem_iff.mpr
    exact (List.perm_append_singleton _ _).mem_iff.mp member
  | abandoned some stuck => exact abandon_stored ..

theorem recorded (ready : Open environment s rest) (run : Runs environment s rest history last) :
    Recorded s last history := by
  induction run with
  | empty => exact .quiet _ _
  | concluded step next ih => exact (Recorded.concluded ready.head step).append (ih (ready.concluded step))
  | parked checked answered next ih => exact (Recorded.quiet _ _).append (ih (ready.parked checked answered))
  | taken first next ih => exact (Recorded.quiet _ _).append (ih (ready.taken first).1)
  | @abandoned s some stuck =>
    have bound : ∀ key ∈ Parked.targets (Parked.settled s.pending), key.node < s.tree.nodes.size := by
      rw [Parked.targets_settled]
      exact ready.bound
    have given := Recorded.abandoned (Parked.settled s.pending) bound
    unfold Parked.settled at given ⊢
    rwa [List.map_map] at given

end Runs
end
end DeferredAttributes
