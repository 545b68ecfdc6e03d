import DeferredAttributes.Proofs.Resolver.Errors
import DeferredAttributes.Proofs.Resolver.Filling
import DeferredAttributes.Proofs.Tree.Revised

-- Attributes whose values a refresh may change. Each comes to a value of its type again, or fails
-- for want of a variable or for a number that is too large.
namespace DeferredAttributes
open Expression

def Tree.Known (t : Tree) (node : Nat) (name : String) : Prop :=
  (∃ binding, t.reference node name = .host binding) ∨
    ∃ key content, t.reference node name = .leads key ∧ t.stored? key = some content ∧
      content.1.number?.isSome = true

-- The key has a value that may change, of the attribute's type, since the attribute is volatile
-- or names something that may change. All that it names is known.
structure Assignment.Renewable (t : Tree) (a : Assignment) : Prop where
  standard : ∃ type, a.resolver = .ofType type
  checked : a.resolver.check a.raw = .ok ()
  fits : (t.slot? a.target).map Entry.type = some a.resolver.type
  varies : t.Varies a.target
  unsteady : a.volatile = true ∨ ∃ name ∈ a.resolver.names a.raw, t.Unsteady a.target.node name
  known : ∀ name ∈ a.resolver.names a.raw, t.Known a.target.node name

section
variable {t t' : Tree} {node : Nat} {environment : Environment} {name : String} {names : List String}
  {volatile after : Bool}

theorem Scope.lookup_knows {x : Float} (found : (lookup ⟨t,node,environment⟩ name volatile).1 = .ok x) :
    t.Known node name := by
  rw [lookup_reference] at found
  cases leads : t.reference node name with
  | host binding => exact .inl ⟨binding,leads⟩
  | nowhere error =>
    rw [leads] at found
    cases found
  | leads key =>
    rw [leads] at found
    rcases holds : t.stored? key with _ | ⟨value,deterministic⟩
    · simp [holds] at found
    · refine .inr ⟨key,(value,deterministic),leads,holds,?_⟩
      cases number : value.number? with
      | none => simp [holds,number] at found
      | some x => rfl

theorem answers_knows {numbers : List Float}
    (found : answers (Scope.lookup ⟨t,node,environment⟩) names volatile = (.ok numbers,after)) :
    ∀ name ∈ names, t.Known node name := by
  induction names generalizing volatile numbers with
  | nil =>
    intro name member
    cases member
  | cons first rest ih =>
    obtain ⟨x,next,more,asked,later,_⟩ := answers_cons_ok.mp found
    intro name member
    rcases List.mem_cons.mp member with rfl | behind
    · exact Scope.lookup_knows (congrArg Prod.fst asked)
    · exact ih later name behind

theorem Assignment.answer_knows {a : Assignment} {content : Value × Bool} (builtin : a.resolver.builtin = true)
    (checked : a.resolver.check a.raw = .ok ()) (answered : a.answer environment t = .ok content) :
    ∀ name ∈ a.resolver.names a.raw, t.Known a.target.node name := by
  obtain ⟨made,resolves⟩ := Resolver.resolve_answers builtin checked
  unfold answer at answered
  rw [resolves] at answered
  rcases asked : answers (Scope.lookup ⟨t,a.target.node,environment⟩) (a.resolver.names a.raw) false with
    ⟨error | numbers,read⟩
  · rw [asked] at answered
    cases answered
  · exact answers_knows asked

theorem Tree.Known.missed (known : t.Known node name) {error : LookupError}
    (failed : (Scope.lookup ⟨t,node,environment⟩ name volatile).1 = .error error) :
    ∃ binding, error = .unknownVariable binding := by
  rw [Scope.lookup_reference] at failed
  rcases known with ⟨binding,host⟩ | ⟨key,⟨value,deterministic⟩,leads,holds,number⟩
  · rw [host] at failed
    dsimp only at failed
    cases bound : environment binding with
    | none =>
      rw [bound] at failed
      cases failed
      exact ⟨binding,rfl⟩
    | some x =>
      rw [bound] at failed
      cases failed
  · obtain ⟨x,has⟩ := Option.isSome_iff_exists.mp number
    dsimp only at has
    simp [leads,holds,has] at failed

section
variable (change : t.Revised t')
include change

theorem Tree.Revised.unsteady : t'.Unsteady node name ↔ t.Unsteady node name := by
  unfold Unsteady
  rw [change.shape.locate]
  apply or_congr_right
  constructor
  · rintro ⟨key,value,leads,stored⟩
    obtain ⟨old,before⟩ := (change.varies key).mp ⟨value,stored⟩
    exact ⟨key,old,leads,before⟩
  · rintro ⟨key,value,leads,stored⟩
    obtain ⟨new,now⟩ := (change.varies key).mpr ⟨value,stored⟩
    exact ⟨key,new,leads,now⟩

theorem Tree.Known.revised (known : t.Known node name) (typed : t.Typed) : t'.Known node name := by
  unfold Known
  rw [change.shape.reference]
  rcases known with host | ⟨key,⟨value,deterministic⟩,leads,holds,number⟩
  · exact .inl host
  · have has := change.fills.kept key (by rw [holds]; rfl)
    obtain ⟨⟨value',deterministic'⟩,holds'⟩ := Option.isSome_iff_exists.mp has
    have same := change.shape.typed_same typed (change.typed typed) holds holds'
    exact .inr ⟨key,(value',deterministic'),leads,holds',(Value.number_type same).trans number⟩

end
end

namespace Assignment.Renewable
variable {t t' : Tree} {a : Assignment} (renewable : a.Renewable t)
include renewable

theorem builtin : a.resolver.builtin = true := by
  obtain ⟨type,standard⟩ := renewable.standard
  rw [standard]
  exact Resolver.builtin_ofType type

theorem slot : ∃ entry, t.slot? a.target = some entry ∧ entry.type = a.resolver.type :=
  Option.map_eq_some_iff.mp renewable.fits

theorem revised (change : t.Revised t') (typed : t.Typed) : a.Renewable t' := by
  refine ⟨renewable.standard,renewable.checked,?_,(change.varies _).mpr renewable.varies,?_,
    fun name member => (renewable.known name member).revised change typed⟩
  · have types : (t'.slot? a.target).map Entry.type = (t.slot? a.target).map Entry.type :=
      (change.shape.nodes a.target.node).types a.target.name
    exact types.trans renewable.fits
  · simp only [change.unsteady]
    exact renewable.unsteady

theorem answer (environment : Environment) :
    (∃ value, a.answer environment t = .ok (value,false) ∧ value.type? = some a.resolver.type) ∨
      ∃ error, a.answer environment t = .error error ∧ error.inRefresh = true := by
  obtain ⟨type,standard⟩ := renewable.standard
  cases answered : a.answer environment t with
  | ok content =>
    obtain ⟨value,deterministic⟩ := content
    have down := (answer_flag renewable.builtin renewable.checked answered).mpr renewable.unsteady
    obtain ⟨entry,found,typed⟩ := renewable.slot
    exact .inl ⟨value,by rw [down],typed ▸ answer_type found answered⟩
  | error error =>
    refine .inr ⟨error,rfl,?_⟩
    rcases answer_error standard renewable.checked renewable.fits answered with
      ⟨name,member,volatile,fault,stopped,rfl⟩ | ⟨number,rfl⟩
    · obtain ⟨binding,rfl⟩ := (renewable.known name member).missed stopped
      rfl
    · rfl

theorem put {environment : Environment} {entry : Entry} {value : Value} {deterministic : Bool}
    (found : t.slot? a.target = some entry) (answered : a.answer environment t = .ok (value,deterministic)) :
    t.Revised (t.put a.target entry value deterministic) := by
  rcases renewable.answer environment with ⟨other,answered',_⟩ | ⟨error,answered',_⟩
  · cases answered.symm.trans answered'
    exact .put found renewable.varies (answer_type found answered)
  · cases answered.symm.trans answered'

end Assignment.Renewable
end DeferredAttributes
