import DeferredAttributes.Proofs.Resolver.Unsteady

-- What can go wrong with an attribute whose resolver is the one for its type: with a name that
-- its text asks for, or with the size of a number.
namespace DeferredAttributes
open Expression

-- The errors that a load can tell about an attribute. None of them is about the store, and none
-- says that something is still to come.
def ResolveError.inLoad : ResolveError → Bool
  | .unknownIdentifier _ | .malformed .. | .validation _ => true
  | .lookup (.notNumeric ..) | .lookup (.invalidPath _) | .lookup (.unknownVariable _) => true
  | .lookup (.unknown _) | .lookup (.notInitialized _) | .lookup (.conversion ..) => false
  | .conversion (.outOfRange _) => true
  | .conversion (.invalidLiteral ..) | .conversion (.notNumeric _) => false
  | .conversion (.unknownType _) | .conversion (.mismatch ..) => false
  | .blocked _ | .store _ => false

def ResolveError.inRefresh : ResolveError → Bool
  | .lookup (.unknownVariable _) | .conversion (.outOfRange _) | .validation _ => true
  | _ => false

theorem ValueType.fromNumber_error {type : ValueType} {number : Float} {error : ConversionError}
    (numeric : type.isNumeric = true) (failed : type.fromNumber number = .error error) : error = .outOfRange number := by
  cases type with
  | string => cases numeric
  | decimal | boolean => cases failed
  | integer =>
    unfold fromNumber at failed
    dsimp only at failed
    split at failed
    · split at failed
      · cases failed
      · cases failed
        rfl
    · cases failed
      rfl

theorem ResolveError.ofExpression_conversion {error : ExpressionError} {fault : ConversionError} :
    ofExpression error ≠ .conversion fault := by
  intro same
  cases error with
  | malformed => cases same
  | lookup text error => cases error <;> cases same

namespace Resolver

theorem converted_error {result : Except ConversionError Value} {error : ResolveError}
    (failed : converted result = .error error) : ∃ fault, error = .conversion fault := by
  cases result with
  | ok value => cases failed
  | error fault =>
    cases failed
    exact ⟨fault,rfl⟩

theorem ofType_conversion {type : ValueType} {raw : String} {scope : Scope} {volatile : Bool} {fault : ConversionError}
    (failed : ((ofType type).resolve raw scope volatile).1 = .error (.conversion fault)) :
    ∃ number, fault = .outOfRange number := by
  unfold ofType at failed
  cases numeric : type.isNumeric with
  | true =>
    rw [numeric,if_pos rfl] at failed
    unfold resolve at failed
    dsimp only at failed
    split at failed
    · rename_i number after evaluated
      cases made : type.fromNumber number with
      | ok value =>
        rw [made] at failed
        cases failed
      | error error =>
        rw [made] at failed
        cases failed
        exact ⟨number,ValueType.fromNumber_error numeric made⟩
    · exact absurd (Except.error.inj failed) ResolveError.ofExpression_conversion
  | false =>
    cases type with
    | string => cases failed
    | boolean | integer | decimal => cases numeric

theorem check_inLoad {r : Resolver} {raw : String} {error : ResolveError} (failed : r.check raw = .error error) :
    error.inLoad = true := by
  cases r with
  | literal | custom => cases failed
  | expression type =>
    unfold check at failed
    dsimp only at failed
    split at failed
    · cases failed
    · rename_i fault malformed
      cases failed
      unfold Expression.check at malformed
      split at malformed
      · cases malformed
      · cases malformed
        rfl

end Resolver

theorem answers_error {σ : Type} {source : Source σ} {names : List String} {s after : σ} {error : LookupError}
    (failed : answers source names s = (.error error,after)) :
    ∃ name ∈ names, ∃ before, (source name before).1 = .error error := by
  induction names generalizing s with
  | nil => cases failed
  | cons name rest ih =>
    rcases answers_cons_error.mp failed with asked | ⟨x,next,_,later⟩
    · exact ⟨name,List.mem_cons_self,s,congrArg Prod.fst asked⟩
    · obtain ⟨other,member,stopped⟩ := ih later
      exact ⟨other,List.mem_cons_of_mem _ member,stopped⟩

theorem Scope.lookup_error {t : Tree} {node : Nat} {environment : Environment} {name : String} {volatile : Bool}
    {error : LookupError} (failed : (lookup ⟨t,node,environment⟩ name volatile).1 = .error error) :
    (∃ key, error = .notInitialized key) ∨ (ResolveError.ofLookup error).inLoad = true := by
  rw [lookup_reference] at failed
  cases leads : t.reference node name with
  | host binding =>
    rw [leads] at failed
    cases known : environment binding with
    | none =>
      simp only [known,Option.elim_none,Except.error.injEq] at failed
      rw [← failed]
      exact .inr rfl
    | some x => simp [known] at failed
  | nowhere lost =>
    rw [leads] at failed
    cases failed
    rcases Tree.reference_nowhere leads with rfl | rfl <;> exact .inr rfl
  | leads key =>
    rw [leads] at failed
    rcases holds : t.stored? key with _ | ⟨value,deterministic⟩
    · simp only [holds,Except.error.injEq] at failed
      exact .inl ⟨key,failed.symm⟩
    · cases number : value.number? with
      | none =>
        simp only [holds,number,Option.elim_none,Except.error.injEq] at failed
        rw [← failed]
        exact .inr rfl
      | some x => simp [holds,number] at failed

section
variable {environment : Environment} {t : Tree} {a : Assignment} {type : ValueType} {error : ResolveError}
  (standard : a.resolver = .ofType type) (checked : a.resolver.check a.raw = .ok ())
  (fits : (t.slot? a.target).map Entry.type = some a.resolver.type)
  (failed : a.answer environment t = .error error)
include standard checked fits failed

-- A key with the attribute's type can hold all that the text comes to, so that the store
-- refuses nothing.
theorem Assignment.answer_error :
    (∃ name ∈ a.resolver.names a.raw, ∃ volatile fault,
      (Scope.lookup ⟨t,a.target.node,environment⟩ name volatile).1 = .error fault ∧ error = .ofLookup fault) ∨
    ∃ number, error = .conversion (.outOfRange number) := by
  have builtin : a.resolver.builtin = true := by
    rw [standard]
    exact Resolver.builtin_ofType type
  obtain ⟨made,resolves⟩ := Resolver.resolve_answers builtin checked
  have resolved := resolves ⟨t,a.target.node,environment⟩ false
  unfold answer at failed
  rcases asked : answers (Scope.lookup ⟨t,a.target.node,environment⟩) (a.resolver.names a.raw) false with
    ⟨fault | numbers,after⟩
  · rw [asked] at resolved
    rw [resolved] at failed
    cases failed
    obtain ⟨name,member,volatile,stopped⟩ := answers_error asked
    exact .inl ⟨name,member,volatile,fault,stopped,rfl⟩
  · rw [asked] at resolved
    dsimp only at resolved
    right
    cases content : Resolver.converted (made numbers) with
    | error other =>
      rw [content] at resolved
      rw [resolved] at failed
      cases failed
      obtain ⟨fault,rfl⟩ := Resolver.converted_error content
      rw [standard] at resolved
      obtain ⟨number,rfl⟩ := Resolver.ofType_conversion (congrArg Prod.fst resolved)
      exact ⟨number,rfl⟩
    | ok value =>
      rw [content] at resolved
      obtain ⟨entry,found,typed⟩ := Option.map_eq_some_iff.mp fits
      have accepted : t.refusal? a.target value = none := by
        rw [Tree.refusal_typed found,typed]
        exact Resolver.resolve_type builtin (congrArg Prod.fst resolved)
      rw [resolved] at failed
      simp only [accepted] at failed
      cases failed

theorem Assignment.answer_inLoad (final : ∀ key, error ≠ .blocked key) : error.inLoad = true := by
  rcases answer_error standard checked fits failed with ⟨name,_,volatile,fault,stopped,rfl⟩ | ⟨number,rfl⟩
  · rcases Scope.lookup_error stopped with ⟨key,rfl⟩ | fine
    · exact absurd rfl (final key)
    · exact fine
  · rfl

end
end DeferredAttributes
