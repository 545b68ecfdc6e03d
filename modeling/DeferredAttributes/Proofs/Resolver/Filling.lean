import DeferredAttributes.Proofs.Resolver.Reads
import DeferredAttributes.Proofs.Tree.Typed

-- Whether a text finds all its numbers depends on which keys have a value, not on the values.
-- What was found before is found again after more writes.
namespace DeferredAttributes
open Expression

theorem Value.number_type {value value' : Value} (same : value'.type? = value.type?) :
    value'.number?.isSome = value.number?.isSome := by
  cases value <;> cases value' <;> first | rfl | cases same

theorem Scope.typeName_type {value value' : Value} (same : value'.type? = value.type?) :
    typeName value' = typeName value := by
  unfold typeName
  rw [same]

section
variable {t t' : Tree} (more : t.Fills t') (typed : t.Typed) (typed' : t'.Typed) {node : Nat}
  {environment : Environment} {name : String} {names : List String} {volatile after : Bool} {error : LookupError}
include more typed typed'

theorem Scope.lookup_found {x : Float} (found : lookup ⟨t,node,environment⟩ name volatile = (.ok x,after))
    (volatile' : Bool) : ∃ y after', lookup ⟨t',node,environment⟩ name volatile' = (.ok y,after') := by
  rw [lookup_reference] at found
  rw [lookup_reference,more.shape.reference]
  cases leads : t.reference node name with
  | host binding =>
    rw [leads] at found
    dsimp only at found ⊢
    cases known : environment binding with
    | none => simp [known] at found
    | some y => exact ⟨y,true,rfl⟩
  | nowhere error =>
    rw [leads] at found
    cases found
  | leads key =>
    rw [leads] at found
    dsimp only at found ⊢
    rcases holds : t.stored? key with _ | ⟨value,deterministic⟩
    · simp [holds] at found
    · obtain ⟨⟨value',deterministic'⟩,holds'⟩ := Option.isSome_iff_exists.mp (more.kept key (by rw [holds]; rfl))
      have numbers := Value.number_type (more.shape.typed_same typed typed' holds holds')
      cases number : value.number? with
      | none => simp [holds,number] at found
      | some y =>
        rw [number] at numbers
        obtain ⟨z,number'⟩ := Option.isSome_iff_exists.mp numbers
        rw [holds']
        dsimp only
        rw [number']
        exact ⟨z,_,rfl⟩

theorem Scope.lookup_missing (failed : lookup ⟨t,node,environment⟩ name volatile = (.error error,after))
    (volatile' : Bool) : (∃ after', lookup ⟨t',node,environment⟩ name volatile' = (.error error,after')) ∨
      ∃ key, error = .notInitialized key ∧ (t'.stored? key).isSome = true := by
  rw [lookup_reference] at failed
  rw [lookup_reference,more.shape.reference]
  cases leads : t.reference node name with
  | host binding =>
    rw [leads] at failed
    dsimp only at failed ⊢
    cases known : environment binding with
    | none =>
      rw [known] at failed
      cases failed
      exact .inl ⟨true,rfl⟩
    | some y => simp [known] at failed
  | nowhere other =>
    rw [leads] at failed
    cases failed
    exact .inl ⟨volatile',rfl⟩
  | leads key =>
    rw [leads] at failed
    dsimp only at failed ⊢
    rcases holds : t.stored? key with _ | ⟨value,deterministic⟩
    · rw [holds] at failed
      cases failed
      cases holds' : t'.stored? key with
      | none => exact .inl ⟨volatile',rfl⟩
      | some content => exact .inr ⟨key,rfl,by rw [holds']; rfl⟩
    · obtain ⟨⟨value',deterministic'⟩,holds'⟩ := Option.isSome_iff_exists.mp (more.kept key (by rw [holds]; rfl))
      have same := more.shape.typed_same typed typed' holds holds'
      have numbers := Value.number_type same
      cases number : value.number? with
      | some y => simp [holds,number] at failed
      | none =>
        rw [number] at numbers
        have number' : value'.number? = none := by simpa using numbers
        rw [holds] at failed
        simp only [number,Option.elim_none,Prod.mk.injEq,Except.error.injEq] at failed
        rw [holds']
        dsimp only
        rw [number',← failed.1,typeName_type same]
        exact .inl ⟨_,rfl⟩

theorem answers_found {numbers : List Float}
    (found : answers (Scope.lookup ⟨t,node,environment⟩) names volatile = (.ok numbers,after)) (volatile' : Bool) :
    ∃ others after', answers (Scope.lookup ⟨t',node,environment⟩) names volatile' = (.ok others,after') := by
  induction names generalizing volatile volatile' numbers with
  | nil => exact ⟨[],volatile',rfl⟩
  | cons name rest ih =>
    obtain ⟨x,next,_,asked,later,_⟩ := answers_cons_ok.mp found
    obtain ⟨y,next',asked'⟩ := Scope.lookup_found more typed typed' asked volatile'
    obtain ⟨others,after',later'⟩ := ih later next'
    exact ⟨y :: others,after',answers_cons_ok.mpr ⟨y,next',others,asked',later',rfl⟩⟩

theorem answers_missing (failed : answers (Scope.lookup ⟨t,node,environment⟩) names volatile = (.error error,after))
    (volatile' : Bool) :
    (∃ after', answers (Scope.lookup ⟨t',node,environment⟩) names volatile' = (.error error,after')) ∨
      ∃ key, error = .notInitialized key ∧ (t'.stored? key).isSome = true := by
  induction names generalizing volatile volatile' with
  | nil => cases failed
  | cons name rest ih =>
    rcases answers_cons_error.mp failed with asked | ⟨x,next,asked,later⟩
    · rcases Scope.lookup_missing more typed typed' asked volatile' with ⟨after',again⟩ | written
      · exact .inl ⟨after',answers_cons_error.mpr (.inl again)⟩
      · exact .inr written
    · obtain ⟨y,next',asked'⟩ := Scope.lookup_found more typed typed' asked volatile'
      rcases ih later next' with ⟨after',again⟩ | written
      · exact .inl ⟨after',answers_cons_error.mpr (.inr ⟨y,next',asked',again⟩)⟩
      · exact .inr written

end
end DeferredAttributes
