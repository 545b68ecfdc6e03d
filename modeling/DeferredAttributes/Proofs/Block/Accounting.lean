import DeferredAttributes.Proofs.Block.Paths
import DeferredAttributes.Proofs.Block.Solution
import DeferredAttributes.Proofs.Resolution.Stamps
import DeferredAttributes.Proofs.Resolution.Unique

-- Every attribute of a loaded block tree is accounted for once: by its value, by one issue
-- that names it, or by its place in the one list of attributes that wait for each other.
namespace DeferredAttributes
open Resolution

namespace Declared

theorem blank_kept (schema : Schema) :
    Kept schema fun d => ∀ i, ∀ entry ∈ (d.tree.node i).entries, entry.2.value = none := by
  refine ⟨?_,?_,?_⟩
  · intro d kind origin node written _ blank i entry member
    obtain ⟨name,raw⟩ := written
    cases declared : d.tree.declares name node with
    | true =>
      rw [(addAttribute_repeated schema kind origin raw declared).1,Tree.setValid,Tree.node_modify] at member
      split at member <;> exact blank i entry member
    | false =>
      rw [(addAttribute_new schema kind origin raw declared).1,Tree.node_modify] at member
      split at member
      · rcases Table.mem_insert member with new | old
        · rw [new]
          rfl
        · exact blank i entry old
      · exact blank i entry member
  · intro d node child blank i entry member
    rw [collision,Tree.setValid,Tree.node_modify] at member
    split at member <;> exact blank i entry member
  · intro d node name origin bound _ blank i entry member
    rw [Tree.node_withChild bound] at member
    split at member
    · cases member
    · split at member
      · exact blank node entry member
      · exact blank i entry member

theorem silent_kept (schema : Schema) :
    Kept schema fun d => ∀ issue ∈ d.issues, issue.isFailed = false ∧ issue.circle? = none := by
  refine ⟨?_,?_,?_⟩
  · intro d kind origin node entry _ silent issue member
    unfold addAttribute at member
    dsimp only at member
    split at member
    · rcases List.mem_append.mp member with old | new
      · exact silent issue old
      · rw [List.mem_singleton.mp new]
        exact ⟨rfl,rfl⟩
    · exact silent issue member
  · intro d node child silent issue member
    rcases List.mem_append.mp member with old | new
    · exact silent issue old
    · rw [List.mem_singleton.mp new]
      exact ⟨rfl,rfl⟩
  · intro d node name origin _ _ silent
    exact silent

theorem ofBlock_blank (schema : Schema) (root : Block) (i : Nat) :
    ∀ entry ∈ ((ofBlock schema root).tree.node i).entries, entry.2.value = none := by
  refine (blank_kept schema).ofBlock root ?_ i
  intro i entry member
  have empty : ((Tree.new root.origin).node i).entries = [] := by
    cases i <;> rfl
  dsimp only at member
  rw [empty] at member
  cases member

theorem ofBlock_silent (schema : Schema) (root : Block) :
    ∀ issue ∈ (ofBlock schema root).issues, issue.isFailed = false ∧ issue.circle? = none := by
  refine (silent_kept schema).ofBlock root ?_
  intro issue member
  cases member

theorem ofBlock_stamped (schema : Schema) (root : Block) : (ofBlock schema root).tree.Stamped := by
  intro i
  have blank := ofBlock_blank schema root i
  have version : ((ofBlock schema root).tree.node i).version = 0 := by
    cases found : root.preorder[i]? with
    | some b => exact (ofBlock_fits schema root found).1.version
    | none =>
      rw [List.getElem?_eq_none_iff,← ofBlock_size schema root] at found
      simp [Tree.node_outside found,Node.new]
  have none : ((ofBlock schema root).tree.node i).stamps = [] := by
    unfold Node.stamps
    rw [List.map_eq_nil_iff,List.filter_eq_nil_iff]
    intro entry member
    rw [blank entry member]
    exact Bool.false_ne_true
  unfold Node.Stamped
  rw [none,version]
  exact .refl _

end Declared

def Issue.errorAt? (path : String) : Issue → Option ResolveError
  | .failed known _ error => if known = path then some error else none
  | _ => none

inductive Outcome where
  | accepted
  | rejected
  | failed
  | circular
deriving DecidableEq

def Outcome.Holds (report : Report) (path : String) (entry : Entry) : Outcome → Prop
  | .accepted => (∃ value, entry.value = some value ∧ value.type? = some entry.type) ∧
      report.filterMap (Issue.errorAt? path) = [] ∧
      ∀ waiting ∈ report.filterMap Issue.circle?, path ∉ waiting.map Prod.fst
  | .rejected => (∃ value, entry.value = some value ∧ value.type? = some entry.type) ∧
      (∃ reason, report.filterMap (Issue.errorAt? path) = [.validation reason]) ∧
      ∀ waiting ∈ report.filterMap Issue.circle?, path ∉ waiting.map Prod.fst
  | .failed => entry.value = none ∧
      (∃ error, report.filterMap (Issue.errorAt? path) = [error]) ∧
      ∀ waiting ∈ report.filterMap Issue.circle?, path ∉ waiting.map Prod.fst
  | .circular => entry.value = none ∧
      report.filterMap (Issue.errorAt? path) = [] ∧
      ∃ waiting, report.filterMap Issue.circle? = [waiting] ∧ (waiting.map Prod.fst).count path = 1

theorem Outcome.only {report : Report} {path : String} {entry : Entry} {one two : Outcome}
    (left : one.Holds report path entry) (right : two.Holds report path entry) : one = two := by
  cases one <;> cases two <;> simp_all [Holds]

-- Issues that are neither about a failure nor about a circle leave every outcome as it is.
section
variable {extra : Report} (silent : ∀ issue ∈ extra, issue.isFailed = false ∧ issue.circle? = none)
include silent

theorem silent_errors (path : String) : extra.filterMap (Issue.errorAt? path) = [] := by
  rw [List.filterMap_eq_nil_iff]
  intro issue present
  cases issue with
  | failed => cases (silent _ present).1
  | _ => rfl

theorem silent_circles : extra.filterMap Issue.circle? = [] :=
  List.filterMap_eq_nil_iff.mpr fun issue present => (silent issue present).2

theorem Outcome.behind {report : Report} {path : String} {entry : Entry} {outcome : Outcome}
    (holds : outcome.Holds report path entry) : outcome.Holds (report ++ extra) path entry := by
  have errors : (report ++ extra).filterMap (Issue.errorAt? path) = report.filterMap (Issue.errorAt? path) := by
    rw [List.filterMap_append,silent_errors silent,List.append_nil]
  have circles : (report ++ extra).filterMap Issue.circle? = report.filterMap Issue.circle? := by
    rw [List.filterMap_append,silent_circles silent,List.append_nil]
  cases outcome <;> unfold Holds at holds ⊢ <;> rwa [errors,circles]

end

namespace Attempt

def outcome (e : Attempt) : Outcome :=
  match e.ending with
  | .executed done => if done.rejected.isSome then .rejected else .accepted
  | .failed _ => .failed
  | .abandoned => .circular

def error? (e : Attempt) : Option ResolveError :=
  match e.ending with
  | .executed done => done.rejected.map .validation
  | .failed error => some error
  | .abandoned => none

theorem fails_outcome (e : Attempt) : e.fails = true ↔ e.outcome ≠ .accepted := by
  obtain ⟨a,ending⟩ := e
  cases ending with
  | executed done => cases rejected : done.rejected <;> simp [fails,outcome,rejected]
  | failed | abandoned => simp [fails,outcome]

theorem issue_map (t : Tree) (e : Attempt) : e.issue? t = e.error?.map (e.assignment.issue t) := by
  obtain ⟨a,ending⟩ := e
  cases ending with
  | executed done => exact (Option.map_map ..).symm
  | failed | abandoned => rfl

theorem issue_error (t : Tree) (path : String) (e : Attempt) :
    (e.issue? t).bind (Issue.errorAt? path) = if t.displayKey e.target = path then e.error? else none := by
  rw [issue_map]
  cases e.error? with
  | none => simp
  | some error => rfl

end Attempt

theorem filterMap_single {α β : Type} {f : α → Option β} {items : List α} {item : α} (distinct : items.Nodup)
    (member : item ∈ items) (others : ∀ other ∈ items, other ≠ item → f other = none) :
    items.filterMap f = (f item).toList := by
  obtain ⟨before,after,rfl⟩ := List.append_of_mem member
  obtain ⟨_,rest,apart⟩ := List.nodup_append.mp distinct
  have early : ∀ other ∈ before, f other = none := fun other present =>
    others other (List.mem_append_left _ present) (apart other present item List.mem_cons_self)
  have late : ∀ other ∈ after, f other = none := by
    intro other present
    apply others other (List.mem_append_right _ (List.mem_cons_of_mem _ present))
    rintro rfl
    exact (List.nodup_cons.mp rest).1 present
  rw [List.filterMap_append,List.filterMap_eq_nil_iff.mpr early,List.nil_append,List.filterMap_cons]
  cases f item with
  | none => exact List.filterMap_eq_nil_iff.mpr late
  | some result =>
    dsimp only
    rw [List.filterMap_eq_nil_iff.mpr late]
    rfl

section
variable {environment : Environment} {t : Tree} {last : Resolution} {assignments : List Assignment}
  {history : List Attempt} (ready : Open environment (.start t) assignments)
  (run : Runs environment (.start t) assignments history last)
  (apart : ∀ one ∈ history, ∀ two ∈ history,
    last.tree.displayKey one.target = last.tree.displayKey two.target → one.target = two.target)
include ready run apart

theorem Runs.same_attempt {e e' : Attempt} (one : e ∈ history) (two : e' ∈ history)
    (same : last.tree.displayKey e.target = last.tree.displayKey e'.target) : e = e' :=
  ready.only run one two (apart e one e' two same)

theorem Runs.errors_at {e : Attempt} (member : e ∈ history) :
    last.issues.filterMap (Issue.errorAt? (last.tree.displayKey e.target)) = e.error?.toList := by
  have circle : (circleIssue environment last.tree history).filterMap
      (Issue.errorAt? (last.tree.displayKey e.target)) = [] := by
    unfold circleIssue
    split <;> rfl
  have distinct : history.Nodup := (ready.nodup run).of_map _
  rw [run.issues ready,List.filterMap_append,List.filterMap_append,circle,List.append_nil,List.filterMap_filterMap]
  simp only [Attempt.issue_error]
  change [] ++ _ = _
  rw [List.nil_append,filterMap_single distinct member]
  · rw [if_pos rfl]
  · intro other present different
    apply if_neg
    intro same
    exact different (run.same_attempt ready apart present member same)

theorem Runs.unlisted {e : Attempt} (member : e ∈ history) (other : e.ending ≠ .abandoned) :
    ∀ waiting ∈ last.issues.filterMap Issue.circle?, last.tree.displayKey e.target ∉ waiting.map Prod.fst := by
  rw [run.circles ready]
  intro waiting listed again
  split at listed
  · cases listed
  · rw [List.mem_singleton.mp listed,List.map_map] at again
    obtain ⟨a,given,same⟩ := List.mem_map.mp again
    have ended := mem_abandonedOf.mp given
    rw [← run.same_attempt ready apart ended member same] at other
    exact other rfl

theorem Runs.listed {e : Attempt} (member : e ∈ history) (ended : e.ending = .abandoned) :
    ∃ waiting, last.issues.filterMap Issue.circle? = [waiting] ∧
      (waiting.map Prod.fst).count (last.tree.displayKey e.target) = 1 := by
  have given : e.assignment ∈ abandonedOf history := mem_abandonedOf.mpr (by rw [← ended]; exact member)
  rw [run.circles ready]
  split
  · rename_i none
    rw [none] at given
    cases given
  · refine ⟨_,rfl,?_⟩
    rw [List.map_map]
    apply List.count_eq_one_of_mem
    · apply List.Nodup.map_on
      · intro a present b present' same
        have equal := run.same_attempt ready apart (mem_abandonedOf.mp present) (mem_abandonedOf.mp present') same
        exact congrArg Attempt.assignment equal
      · have assignments : ((history.map Attempt.assignment).map Assignment.target).Nodup := by
          rw [List.map_map]
          exact ready.nodup run
        exact (abandonedOf_sublist history).nodup assignments.of_map
    · exact List.mem_map.mpr ⟨e.assignment,given,rfl⟩

theorem Runs.outcome_holds {e : Attempt} (member : e ∈ history) {entry : Entry}
    (found : last.tree.slot? e.target = some entry) {extra : Report}
    (silent : ∀ issue ∈ extra, issue.isFailed = false ∧ issue.circle? = none) :
    e.outcome.Holds (extra ++ last.issues) (last.tree.displayKey e.target) entry := by
  have errors : (extra ++ last.issues).filterMap (Issue.errorAt? (last.tree.displayKey e.target)) =
      e.error?.toList := by
    rw [List.filterMap_append,run.errors_at ready apart member,silent_errors silent,List.nil_append]
  have circles : (extra ++ last.issues).filterMap Issue.circle? = last.issues.filterMap Issue.circle? := by
    rw [List.filterMap_append,silent_circles silent,List.nil_append]
  have unlisted := run.unlisted ready apart member
  have listed := run.listed ready apart member
  rw [← circles] at unlisted listed
  obtain ⟨later,_,upheld⟩ := (run.truthful ready).mem member
  obtain ⟨a,ending⟩ := e
  dsimp only at upheld
  cases upheld with
  | malformed _ blank | failed _ _ _ blank | lost _ _ _ _ blank =>
    exact ⟨Tree.slot_blank found blank,⟨_,errors⟩,unlisted fun impossible => by cases impossible⟩
  | abandoned _ _ _ _ blank => exact ⟨Tree.slot_blank found blank,errors,listed rfl⟩
  | @executed value deterministic _ answered stored =>
    have solved := (Tree.slot_solved found stored).1
    have fits : ∃ value, entry.value = some value ∧ value.type? = some entry.type :=
      ⟨value,solved,Assignment.answer_type found answered⟩
    unfold Attempt.outcome
    cases rejected : a.rejection value with
    | none => exact ⟨fits,by simpa [Attempt.error?,rejected] using errors,unlisted fun impossible => by cases impossible⟩
    | some reason =>
      exact ⟨fits,⟨reason,by simpa [Attempt.error?,rejected] using errors⟩,unlisted fun impossible => by cases impossible⟩

end

theorem Declared.ofBlock_apart (schema : Schema) (root : Block)
    (names : ∀ b ∈ root.preorder.tail, '/' ∉ b.name.toList)
    (keys : ∀ b ∈ root.preorder, ∀ entry ∈ b.attributes, '/' ∉ entry.1.toList) {one two : Assignment}
    (left : one ∈ (ofBlock schema root).assignments) (right : two ∈ (ofBlock schema root).assignments)
    (same : (ofBlock schema root).tree.displayKey one.target = (ofBlock schema root).tree.displayKey two.target) :
    one.target = two.target := by
  have bound : ∀ a ∈ (ofBlock schema root).assignments,
      a.target.node < (ofBlock schema root).tree.nodes.size ∧ '/' ∉ a.target.name.toList := by
    intro a member
    refine ⟨(ofBlock_ready schema root a member).awaited.bound,?_⟩
    obtain ⟨b,placed,written⟩ := mem_written member
    exact keys b placed _ written
  have clean : ∀ i, 0 < i → i < (ofBlock schema root).tree.nodes.size →
      '/' ∉ ((ofBlock schema root).tree.node i).name.toList := by
    intro i positive bounded
    rw [ofBlock_size] at bounded
    have placed := List.getElem?_eq_getElem bounded
    rw [(ofBlock_fits schema root placed).2 (Nat.ne_of_gt positive)]
    apply names
    generalize root.preorder[i] = b at placed ⊢
    rw [Block.preorder_cons] at placed ⊢
    cases i with
    | zero => exact absurd positive (Nat.lt_irrefl 0)
    | succ i => exact List.mem_of_getElem? (by simpa using placed)
  exact (ofBlock_rooted schema root).displayKey_inj clean (bound one left).1 (bound two right).1 (bound one left).2
    (bound two right).2 same

section
variable {schema : Schema} {environment : Environment} {root : Block} {last : Resolution}
  (run : Runs environment (.start (Declared.ofBlock schema root).tree) (Declared.ofBlock schema root).assignments
    (root.attempts schema environment) last)
include run

theorem Block.attempt_slot (key : Key) :
    (last.tree.slot? key).isSome = true ↔ ∃ e ∈ root.attempts schema environment, e.target = key := by
  have keys : (∃ e ∈ root.attempts schema environment, e.target = key) ↔
      ∃ a ∈ (Declared.ofBlock schema root).assignments, a.target = key := by
    have targets := run.targets.mem_iff (a := key)
    change key ∈ _ ↔ key ∈ (Declared.ofBlock schema root).assignments.map Assignment.target at targets
    rwa [List.mem_map,List.mem_map] at targets
  rw [run.grows.shape.slot_isSome key,keys]
  change ((Declared.ofBlock schema root).tree.slot? key).isSome = true ↔ _
  rw [Declared.ofBlock_slot]
  constructor
  · intro some
    obtain ⟨entry,found⟩ := Option.isSome_iff_exists.mp some
    obtain ⟨b,placed,found⟩ := Option.bind_eq_some_iff.mp found
    obtain ⟨raw,written,_⟩ := Option.map_eq_some_iff.mp found
    exact ⟨schema.assignment b.kind key raw,Declared.mem_ofBlock.mpr ⟨b,placed,written,rfl⟩,rfl⟩
  · rintro ⟨a,member,rfl⟩
    obtain ⟨b,placed,written,_⟩ := Declared.mem_ofBlock.mp member
    rw [placed,Option.bind_some,written]
    rfl

theorem Block.load_valid {i : Nat} {b : Block} (placed : root.preorder[i]? = some b) :
    (last.tree.node i).valid = false ↔
      (∃ e ∈ root.attempts schema environment, e.fails = true ∧ e.target.node = i) ∨ b.Repeats := by
  have valid := (run.recorded (root.load_open schema environment)).valid i
  have declared := (Declared.ofBlock_fits schema root placed).1.valid
  change _ ↔ ((Declared.ofBlock schema root).tree.node i).valid = true ∧ _ at valid
  rw [← Bool.not_eq_true,valid,declared]
  constructor
  · intro invalid
    by_cases failing : ∃ e ∈ root.attempts schema environment, e.fails = true ∧ e.target.node = i
    · exact .inl failing
    · right
      by_contra once
      exact invalid ⟨once,fun e member fails here => failing ⟨e,member,fails,here⟩⟩
  · rintro (⟨e,member,fails,here⟩ | repeats) ⟨once,all⟩
    · exact all e member fails here
    · exact once repeats

-- Where no name has a slash, every attempt has a path of its own, and its outcome holds of its key.
section
variable (names : ∀ b ∈ root.preorder.tail, '/' ∉ b.name.toList)
  (keys : ∀ b ∈ root.preorder, ∀ entry ∈ b.attributes, '/' ∉ entry.1.toList)
include names keys

theorem Block.attempts_apart : ∀ one ∈ root.attempts schema environment, ∀ two ∈ root.attempts schema environment,
    last.tree.displayKey one.target = last.tree.displayKey two.target → one.target = two.target := by
  have assigned : ∀ e ∈ root.attempts schema environment,
      e.assignment ∈ (Declared.ofBlock schema root).assignments := fun e member =>
    run.once.mem_iff.mp (List.mem_map.mpr ⟨e,member,rfl⟩)
  intro one left two right same
  rw [run.grows.shape.displayKey,run.grows.shape.displayKey] at same
  exact Declared.ofBlock_apart schema root names keys (assigned one left) (assigned two right) same

theorem Block.attempt_outcome {e : Attempt} (member : e ∈ root.attempts schema environment) {entry : Entry}
    (found : last.tree.slot? e.target = some entry) :
    e.outcome.Holds ((Declared.ofBlock schema root).issues ++ last.issues) (last.tree.displayKey e.target) entry :=
  run.outcome_holds (root.load_open schema environment) (Block.attempts_apart run names keys) member found
    (Declared.ofBlock_silent schema root)

end

end

-- Every key has one outcome, every value was written once, and a node is invalid when it has an
-- outcome other than an accepted value, a repeated key or two children of one name.
theorem Block.load_accounts (schema : Schema) (environment : Environment) (root : Block)
    (names : ∀ b ∈ root.preorder.tail, '/' ∉ b.name.toList)
    (keys : ∀ b ∈ root.preorder, ∀ entry ∈ b.attributes, '/' ∉ entry.1.toList) :
    let report := (root.load schema environment).1
    let s := (root.load schema environment).2
    s.pending = [] ∧
    (∀ key entry, s.tree.slot? key = some entry → ∃! outcome, Outcome.Holds report (s.tree.displayKey key) entry outcome) ∧
    (∀ i, (s.tree.node i).version = (s.tree.node i).entries.countP (fun entry => entry.2.value.isSome) ∧
      (s.tree.node i).stamps.Perm (List.range' 1 (s.tree.node i).version)) ∧
    ∀ i b, root.preorder[i]? = some b → ((s.tree.node i).valid = false ↔
      (∃ name entry outcome, s.tree.slot? ⟨i,name⟩ = some entry ∧ outcome ≠ .accepted ∧
        Outcome.Holds report (s.tree.displayKey ⟨i,name⟩) entry outcome) ∨ b.Repeats) := by
  intro report s
  obtain ⟨last,run,reported,tree,pending,_⟩ := root.load_runs schema environment
  change report = _ at reported
  change s.tree = _ at tree
  have holds : ∀ e ∈ root.attempts schema environment, ∀ entry, s.tree.slot? e.target = some entry →
      Outcome.Holds report (s.tree.displayKey e.target) entry e.outcome := by
    intro e member entry found
    rw [tree] at found ⊢
    rw [reported]
    exact Block.attempt_outcome run names keys member found
  have slots := Block.attempt_slot run
  rw [← tree] at slots
  refine ⟨pending.trans run.pending,?_,?_,?_⟩
  · intro key entry found
    obtain ⟨e,member,rfl⟩ := (slots key).mp (by rw [found]; rfl)
    exact ⟨e.outcome,holds e member entry found,fun other also => Outcome.only also (holds e member entry found)⟩
  · intro i
    have stamped := run.stamped (Declared.ofBlock_stamped schema root) i
    rw [tree]
    exact ⟨stamped.version,stamped⟩
  · intro i b placed
    rw [tree,Block.load_valid run placed,← tree]
    apply or_congr_left
    constructor
    · rintro ⟨e,member,fails,rfl⟩
      obtain ⟨entry,found⟩ := Option.isSome_iff_exists.mp ((slots e.target).mpr ⟨e,member,rfl⟩)
      exact ⟨e.target.name,entry,e.outcome,found,(e.fails_outcome).mp fails,holds e member entry found⟩
    · rintro ⟨name,entry,outcome,found,other,also⟩
      obtain ⟨e,member,target⟩ := (slots ⟨i,name⟩).mp (by rw [found]; rfl)
      rw [← target] at found also
      have same := Outcome.only also (holds e member entry found)
      exact ⟨e,member,e.fails_outcome.mpr (same ▸ other),by rw [target]⟩

def plant : Block :=
  ⟨"plant","main",.blank,[("base","3"),("typo","1 +")],[⟨"pump","first",.blank,[("here","@there"),("there","@here")],[]⟩]⟩

theorem load_accounts_plant :
    (∀ b ∈ plant.preorder.tail, '/' ∉ b.name.toList) ∧
      (∀ b ∈ plant.preorder, ∀ entry ∈ b.attributes, '/' ∉ entry.1.toList) ∧
      (plant.load [] .empty).2.pending = [] ∧
      (∃ entry, (plant.load [] .empty).2.tree.slot? ⟨1,"here"⟩ = some entry ∧
        ∃! outcome, Outcome.Holds (plant.load [] .empty).1 ((plant.load [] .empty).2.tree.displayKey ⟨1,"here"⟩)
          entry outcome) ∧
      ((plant.load [] .empty).2.tree.node 0).stamps.Perm
        (List.range' 1 ((plant.load [] .empty).2.tree.node 0).version) := by
  have names : ∀ b ∈ plant.preorder.tail, '/' ∉ b.name.toList := by decide +kernel
  have keys : ∀ b ∈ plant.preorder, ∀ entry ∈ b.attributes, '/' ∉ entry.1.toList := by decide +kernel
  obtain ⟨pending,outcomes,stamps,_⟩ := Block.load_accounts [] .empty plant names keys
  have declared : ((Declared.ofBlock [] plant).tree.slot? ⟨1,"here"⟩).isSome = true := by decide +kernel
  rw [← (plant.load_shape [] .empty).slot_isSome] at declared
  obtain ⟨entry,found⟩ := Option.isSome_iff_exists.mp declared
  exact ⟨names,keys,pending,⟨entry,found,outcomes _ entry found⟩,(stamps 0).2⟩

end DeferredAttributes
