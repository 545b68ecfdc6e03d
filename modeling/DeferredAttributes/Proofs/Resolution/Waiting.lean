import DeferredAttributes.Proofs.Resolution.Circle
import DeferredAttributes.Proofs.Resolver.Filling

-- Which key an attribute waits for while values are written and replaced around it.
namespace DeferredAttributes
open Expression

theorem ResolveError.ofLookup_blocked {error : LookupError} {key : Key} :
    ofLookup error = .blocked key ↔ error = .notInitialized key := by
  cases error <;> simp [ofLookup]

namespace Assignment
variable {environment : Environment} {t t' : Tree} {a : Assignment} {key : Key}

theorem execute_blocked (builtin : a.resolver.builtin = true) (checked : a.resolver.check a.raw = .ok ()) :
    a.execute environment t = .error (.blocked key) ↔
      ∃ after, answers (Scope.lookup ⟨t,a.target.node,environment⟩) (a.resolver.names a.raw) false =
        (.error (.notInitialized key),after) := by
  obtain ⟨made,resolves⟩ := Resolver.resolve_answers builtin checked
  unfold execute
  rw [resolves]
  rcases answers (Scope.lookup ⟨t,a.target.node,environment⟩) (a.resolver.names a.raw) false with
    ⟨error | numbers,after⟩
  · simp [ResolveError.ofLookup_blocked]
  · dsimp only
    cases converted : Resolver.converted (made numbers) with
    | error error =>
      have final : error ≠ .blocked key := by
        intro same
        rw [same] at converted
        exact Resolver.converted_blocked converted
      simp [final]
    | ok value =>
      dsimp only
      cases t.write a.target value (!a.volatile && !after) <;> simp

namespace StuckOn

theorem blank (stuck : a.StuckOn environment t key) (builtin : a.resolver.builtin = true) : t.stored? key = none := by
  obtain ⟨after,stopped⟩ := (execute_blocked builtin stuck.checked).mp stuck.blocked
  have missing := List.find?_some (answers_blocked stopped)
  exact Option.isNone_iff_eq_none.mp missing

section
variable (builtin : a.resolver.builtin = true) (more : t.Fills t') (typed : t.Typed) (typed' : t'.Typed)
include builtin more typed typed'

theorem again (stuck : a.StuckOn environment t key) :
    a.StuckOn environment t' key ∨ (t'.stored? key).isSome = true := by
  obtain ⟨after,stopped⟩ := (execute_blocked builtin stuck.checked).mp stuck.blocked
  rcases answers_missing more typed typed' stopped false with still | ⟨other,same,written⟩
  · exact .inl ⟨stuck.checked,(execute_blocked builtin stuck.checked).mpr still⟩
  · cases same
    exact .inr written

theorem before (stuck : a.StuckOn environment t' key) :
    a.StuckOn environment t key ∨ ∃ other, a.StuckOn environment t other ∧ (t'.stored? other).isSome = true := by
  obtain ⟨after,stopped⟩ := (execute_blocked builtin stuck.checked).mp stuck.blocked
  rcases asked : answers (Scope.lookup ⟨t,a.target.node,environment⟩) (a.resolver.names a.raw) false with
    ⟨error | numbers,_⟩
  · rcases answers_missing more typed typed' asked false with ⟨_,still⟩ | ⟨other,rfl,written⟩
    · rw [stopped] at still
      cases still
      exact .inl ⟨stuck.checked,(execute_blocked builtin stuck.checked).mpr ⟨_,asked⟩⟩
    · exact .inr ⟨other,⟨stuck.checked,(execute_blocked builtin stuck.checked).mpr ⟨_,asked⟩⟩,written⟩
  · obtain ⟨others,_,found⟩ := answers_found more typed typed' asked false
    rw [stopped] at found
    cases found

theorem unchanged (back : ∀ key, (t'.stored? key).isSome = true → (t.stored? key).isSome = true) :
    a.StuckOn environment t' key ↔ a.StuckOn environment t key := by
  have never : ∀ other, a.StuckOn environment t other → (t'.stored? other).isSome = true → False := by
    intro other stuck written
    have has := back other written
    rw [stuck.blank builtin] at has
    cases has
  constructor
  · intro stuck
    rcases stuck.before builtin more typed typed' with same | ⟨other,earlier,written⟩
    · exact same
    · exact (never other earlier written).elim
  · intro stuck
    rcases stuck.again builtin more typed typed' with same | written
    · exact same
    · exact (never key stuck written).elim

end
end StuckOn
end Assignment
end DeferredAttributes
