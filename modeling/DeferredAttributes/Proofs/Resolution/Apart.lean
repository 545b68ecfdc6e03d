import DeferredAttributes.Proofs.Resolution.Local
import DeferredAttributes.Proofs.Tree.Apart

-- Two runs over trees that are alike apart from one key, which no attribute names. They leave the
-- same at every other key, and expressions that do not name the key come to the same over both.
namespace DeferredAttributes
open Resolution Expression

def Spares (key : Key) (names : List String) : Prop := ∀ name ∈ names, Tree.lastSegment name ≠ key.name

namespace Tree.AlikeBut
variable {key : Key} {t t' : Tree} (alike : AlikeBut key t t')
include alike

theorem reference {name : String} (apart : lastSegment name ≠ key.name) (node : Nat) :
    t'.reference node name = t.reference node name := by
  unfold Tree.reference
  rw [alike.locate apart]

theorem sees {a : Assignment} (spares : Spares key (a.resolver.names a.raw)) (other : a.target ≠ key) : a.Sees t t' :=
  ⟨fun name member => alike.reference (spares name member) a.target.node,alike.refusal other⟩

end Tree.AlikeBut

theorem Spares.reads {key other : Key} {t : Tree} {node : Nat} {names : List String} (spares : Spares key names)
    (read : other ∈ t.keysRead node names) : other ≠ key := by
  obtain ⟨name,member,leads⟩ := Tree.mem_keysRead.mp read
  unfold Tree.reference at leads
  split at leads
  · cases leads
  · split at leads
    · cases leads
    · rename_i located
      cases leads
      rintro rfl
      exact spares name member (Tree.locate_name_eq located).symm

theorem evaluate_parsed {σ : Type} {source : Source σ} {text : String} {s : σ} {n : Float}
    (done : (evaluate source text s).1 = .ok n) : ∃ e, (parse text).outcome = .ok e := by
  unfold evaluate at done
  split at done
  · rename_i e parsed
    exact ⟨e,by rw [parsed]⟩
  · split at done <;> cases done

section
variable {environment : Environment} {key : Key} {s s' last last' : Resolution} {rest rest' : List Assignment}
  {history history' : List Attempt}
  (ready : Open environment s rest) (run : Runs environment s rest history last)
  (ready' : Open environment s' rest') (run' : Runs environment s' rest' history' last')
  (alike : Tree.AlikeBut key s.tree s'.tree)
  (blank : ∀ other, s.tree.stored? other = none)
  (same : ∀ a : Assignment, a.target ≠ key →
    (a ∈ history.map Attempt.assignment ↔ a ∈ history'.map Attempt.assignment))
  (spares : ∀ a ∈ history.map Attempt.assignment, a.target ≠ key → Spares key (a.resolver.names a.raw))
include ready run ready' run' alike blank same spares

theorem Runs.below_but : last.tree.ExtendsOn {other | other ≠ key} last'.tree := by
  have there : Tree.AlikeBut key s.tree last'.tree := alike.shaped (.refl _) run'.grows.shape
  refine run.least_on ready ?_ ?_ ?_ ?_
  · exact fun a member other => there.sees (spares a member other) other
  · exact fun a member other read reads => (spares a member other).reads reads
  · exact fun a member other => (run'.truthful ready').closed a ((same a other).mp member)
  · intro other _ content found
    rw [blank other] at found
    cases found

variable (blank' : ∀ other, s'.tree.stored? other = none)
include blank'

theorem Runs.stored_but {other : Key} (apart : other ≠ key) : last'.tree.stored? other = last.tree.stored? other := by
  have there := run.below_but ready ready' run' alike blank same spares other apart
  have back := run'.below_but ready' ready run alike.symm blank' (fun a other => (same a other).symm)
    (fun a member other => spares a ((same a other).mpr member) other) other apart
  cases found : last.tree.stored? other with
  | some content => exact there content found
  | none =>
    cases found' : last'.tree.stored? other with
    | none => rfl
    | some content => exact (back content found').symm.trans found

theorem Runs.slot_but {other : Key} (apart : other ≠ key) (start : s'.tree.slot? other = s.tree.slot? other) :
    (last'.tree.slot? other).map (fun entry => (entry.value,entry.deterministic)) =
      (last.tree.slot? other).map fun entry => (entry.value,entry.deterministic) := by
  have equal := run.stored_but ready ready' run' alike blank same spares blank' apart
  cases found : last.tree.stored? other with
  | none => rw [run.blank_slot found,run'.blank_slot (equal.trans found),start]
  | some content => rw [Tree.slot_stored found,Tree.slot_stored (equal.trans found)]

theorem Runs.evaluate_but {text : String} (spared : Spares key (asked (tokens text))) (node : Nat) (volatile : Bool)
    (n : Float) : (evaluate (Scope.lookup ⟨last'.tree,node,environment⟩) text volatile).1 = .ok n ↔
      (evaluate (Scope.lookup ⟨last.tree,node,environment⟩) text volatile).1 = .ok n := by
  have there : Tree.AlikeBut key last.tree last'.tree := alike.shaped run.grows.shape run'.grows.shape
  have answers := answers_agree (fun name member => there.reference (spared name member) node) environment volatile
    fun other read => run.stored_but ready ready' run' alike blank same spares blank' (spared.reads read)
  have equal : ∀ {e}, (parse text).outcome = .ok e →
      evaluate (Scope.lookup ⟨last'.tree,node,environment⟩) text volatile =
        evaluate (Scope.lookup ⟨last.tree,node,environment⟩) text volatile := by
    intro e parsed
    rw [evaluate_answers parsed,evaluate_answers parsed,answers]
  constructor <;> intro done <;> obtain ⟨e,parsed⟩ := evaluate_parsed done
  · rwa [← equal parsed]
  · rwa [equal parsed]

end
end DeferredAttributes
