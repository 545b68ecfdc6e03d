import DeferredAttributes.Proofs.Block.Renewal
import DeferredAttributes.Proofs.Block.Retained
import DeferredAttributes.Proofs.Resolution.Retaining

-- What the refreshes after the load of a block tree may touch, and what it comes to when one of
-- them is made twice.
namespace DeferredAttributes
open Resolution

theorem Retaining.refreshed {s : Resolution} (retaining : Retaining s) (refreshes : List (Environment × Option Nat)) :
    Retaining (s.refreshed refreshes) := by
  induction refreshes generalizing s with
  | nil => exact retaining
  | cons refresh rest ih => exact ih (retaining.refresh refresh.1 refresh.2)

namespace Block

theorem attempt_fits {schema : Schema} {environment : Environment} {root : Block} {last : Resolution}
    (run : Runs environment (.start (Declared.ofBlock schema root).tree) (Declared.ofBlock schema root).assignments
      (root.attempts schema environment) last) {e : Attempt} (member : e ∈ root.attempts schema environment) :
    ∃ type, e.assignment.resolver = .ofType type ∧
      (last.tree.slot? e.target).map Entry.type = some e.assignment.resolver.type := by
  have declared := run.once.mem_iff.mp (List.mem_map.mpr ⟨e,member,rfl⟩)
  obtain ⟨b,_,_,same⟩ := Declared.mem_ofBlock.mp declared
  exact ⟨_,congrArg Assignment.resolver same,attempt_typed run declared⟩

theorem load_renewable (schema : Schema) (environment : Environment) (root : Block) :
    ∀ a ∈ (root.load schema environment).2.retained, a.Renewable (root.load schema environment).2.tree := by
  have ready := root.load_open schema environment
  obtain ⟨last,run,tree,retained⟩ := root.load_keeps schema environment
  intro a member
  rw [retained,run.mem_retained ready] at member
  obtain ⟨tried,value,stored⟩ := member
  obtain ⟨e,present,rfl⟩ := List.mem_map.mp tried
  obtain ⟨later,_,upheld⟩ := (run.truthful ready).mem present
  obtain ⟨type,standard,fits⟩ := attempt_fits run present
  have builtin : e.assignment.resolver.builtin = true := standard ▸ Resolver.builtin_ofType type
  have checked := upheld.checked stored
  have answered := upheld.solved stored
  rw [tree]
  exact ⟨⟨type,standard⟩,checked,fits,⟨value,stored⟩,(Assignment.answer_flag builtin checked answered).mp rfl,
    Assignment.answer_knows builtin checked answered⟩

theorem load_tree_typed (schema : Schema) (environment : Environment) (root : Block) :
    (root.load schema environment).2.tree.Typed := by
  have ready := root.load_open schema environment
  obtain ⟨last,run,tree,_⟩ := root.load_keeps schema environment
  rw [tree]
  intro key entry value found has
  obtain ⟨e,present,rfl⟩ := (attempt_slot run key).mp (by rw [found]; rfl)
  obtain ⟨later,_,upheld⟩ := (run.truthful ready).mem present
  exact Assignment.answer_type found (upheld.solved (Tree.stored_solved found has))

theorem load_arranged (schema : Schema) (environment : Environment) (root : Block) :
    Arranged (root.load schema environment).2.tree (root.load schema environment).2.retained := by
  have ready := root.load_open schema environment
  have renewable := root.load_renewable schema environment
  obtain ⟨last,run,tree,retained⟩ := root.load_keeps schema environment
  obtain ⟨ordered,own⟩ := run.unread ready
  have distinct : (((root.attempts schema environment).map Attempt.assignment).map Assignment.target).Nodup := by
    rw [List.map_map]
    exact ready.nodup run
  rw [tree,retained] at renewable ⊢
  exact ⟨fun a member => ⟨(renewable a member).builtin,(renewable a member).checked⟩,
    distinct.sublist ((retainedOf_sublist _).map _),ordered,own⟩

theorem load_retaining (schema : Schema) (environment : Environment) (root : Block) :
    Retaining (root.load schema environment).2 :=
  ⟨root.load_tree_typed schema environment,root.load_renewable schema environment,root.load_arranged schema environment⟩

theorem load_closed (schema : Schema) (environment : Environment) (root : Block) :
    Closed environment (root.load schema environment).2.tree (root.load schema environment).2.retained := by
  have ready := root.load_open schema environment
  obtain ⟨last,run,tree,retained⟩ := root.load_keeps schema environment
  rw [tree,retained]
  intro a member
  exact (run.truthful ready).closed a ((run.mem_retained ready).mp member).1

-- Outside the node a refresh changes nothing, and below it only values that may change. Every
-- value that an attempt comes to is one write of its node.
theorem refresh_touches (schema : Schema) (environment : Environment) (root : Block)
    (refreshes : List (Environment × Option Nat)) (environment' : Environment) (start : Option Nat) :
    let s := (root.load schema environment).2.refreshed refreshes
    let t := (s.refresh environment' start).2.tree
    let attempts := s.refreshHistory environment' start
    attempts.map Attempt.assignment = s.retained.filter (Assignment.covered s.tree start) ∧
    (∀ node, start = some node → ∀ i, s.tree.isWithin i node = false → t.node i = s.tree.node i) ∧
    (∀ key value, s.tree.stored? key = some (value,true) → t.slot? key = s.tree.slot? key) ∧
    s.tree.SameShape t ∧
    (∀ key, (t.slot? key).map (fun entry => (entry.type,entry.value.isSome,entry.deterministic)) =
      (s.tree.slot? key).map fun entry => (entry.type,entry.value.isSome,entry.deterministic)) ∧
    (∀ i, (t.node i).version =
      (s.tree.node i).version + attempts.countP fun e => e.stores && e.target.node = i) ∧
    ∀ e ∈ attempts, e.stores = false → t.slot? e.target = s.tree.slot? e.target := by
  intro s t attempts
  have retaining : Retaining s := (root.load_retaining schema environment).refreshed refreshes
  have revised : s.tree.Revised t := retaining.revised environment' start
  obtain ⟨last,pass,reflagged,_⟩ := refresh_passes environment' start s
  change last.Reflagged t at reflagged
  refine ⟨pass.tried,?_,?_,revised.shape,revised.marks,?_,?_⟩
  · intro node same i outside
    have elsewhere : ∀ a ∈ s.covered start, a.target.node ≠ i := by
      intro a member here
      have covers := (List.mem_filter.mp member).2
      rw [same,Assignment.covered,Option.all_some,here,outside] at covers
      cases covers
    have untouched : ¬Touched attempts i := by
      intro touched
      obtain ⟨e,member,here⟩ := touched
      exact elsewhere e.assignment (pass.tried ▸ List.mem_map.mpr ⟨e,member,rfl⟩) here
    have flag : (t.node i).valid = (s.tree.node i).valid := refresh_untouched environment' start s untouched
    rw [reflagged.node,flag,pass.node elsewhere]
  · intro key value stored
    apply revised.fixed
    intro varies
    obtain ⟨other,may⟩ := varies
    cases stored.symm.trans may
  · intro i
    rw [reflagged.node]
    exact pass.version i
  · intro e member failed
    rw [reflagged.slot]
    apply pass.slot
    intro other among stores same
    have distinct : (attempts.map Attempt.target).Nodup := by
      have targets := (retaining.covered_arranged start).distinct
      rwa [← pass.tried,List.map_map] at targets
    rw [List.inj_on_of_nodup_map distinct among member same,failed] at stores
    cases stores

-- A refresh made twice reports the same twice, and the second time moves stamps and versions
-- only. The first one after a load, with the same variables, changes no value.
theorem refresh_again (schema : Schema) (environment : Environment) (root : Block)
    (refreshes : List (Environment × Option Nat)) (environment' : Environment) (start : Option Nat) :
    let loaded := (root.load schema environment).2
    let s := loaded.refreshed refreshes
    let once := s.refresh environment' start
    let twice := once.2.refresh environment' start
    Closed environment' once.2.tree (s.covered start) ∧
    twice.1 = once.1 ∧ twice.2.tree.unstamped = once.2.tree.unstamped ∧
    ∀ key, (loaded.refresh environment none).2.tree.stored? key = loaded.tree.stored? key := by
  intro loaded s once twice
  have retaining : Retaining loaded := root.load_retaining schema environment
  have later : Retaining s := retaining.refreshed refreshes
  obtain ⟨report,tree⟩ := later.again environment' start
  refine ⟨(later.settled environment' start).2,report,tree,?_⟩
  obtain ⟨last,pass,reflagged,_⟩ := refresh_passes environment none loaded
  have all : loaded.covered none = loaded.retained := List.filter_eq_self.mpr fun _ _ => rfl
  rw [all] at pass
  intro key
  rw [reflagged.stored]
  exact (pass.repeats retaining.arranged.checked (root.load_closed schema environment)).2.1 key

end Block

def twin : Block :=
  ⟨"tank","main",.blank,[("base","3")],
    [⟨"gauge","left",.blank,[("level","$fuel + base")],[]⟩,⟨"gauge","right",.blank,[("level","$fuel")],[]⟩]⟩

theorem refresh_touches_twin :
    let s := (twin.load [] (fuel 1)).2.refreshed [(fuel 2,none)]
    let t := (s.refresh .empty (some 1)).2.tree
    s.tree.isWithin 2 1 = false ∧ t.node 2 = s.tree.node 2 ∧
    (∃ value, s.tree.stored? ⟨0,"base"⟩ = some (value,true)) ∧ t.slot? ⟨0,"base"⟩ = s.tree.slot? ⟨0,"base"⟩ ∧
    ∃ e ∈ s.refreshHistory .empty (some 1), e.stores = false ∧ t.slot? e.target = s.tree.slot? e.target := by
  intro s t
  have idle : (twin.tried [] (fuel 1)).pending = [] := List.length_eq_zero_iff.mp (by decide +kernel)
  have outside : s.tree.isWithin 2 1 = false := by
    unfold s
    rw [Block.load_idle idle]
    decide +kernel
  have steady : (s.tree.stored? ⟨0,"base"⟩).any Prod.snd = true := by
    unfold s
    rw [Block.load_idle idle]
    decide +kernel
  have failing : (s.refreshHistory .empty (some 1)).any (fun e => !e.stores) = true := by
    unfold s
    rw [Block.load_idle idle]
    decide +kernel
  obtain ⟨⟨value,flag⟩,stored,up⟩ := (Option.any_eq_true _ _).mp steady
  cases up
  obtain ⟨e,member,failed⟩ := List.any_eq_true.mp failing
  obtain ⟨_,apart,kept,_,_,_,left⟩ := Block.refresh_touches [] (fuel 1) twin [(fuel 2,none)] .empty (some 1)
  have down : e.stores = false := (Bool.not_eq_true' _).mp failed
  exact ⟨outside,apart 1 rfl 2 outside,⟨value,stored⟩,kept _ value stored,e,member,down,left e member down⟩

end DeferredAttributes
