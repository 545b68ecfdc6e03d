import DeferredAttributes.Proofs.Resolver.Stable
import DeferredAttributes.Resolution.Assignment

-- What an attribute comes to over a tree. An answer over a tree is the answer over every
-- tree with more values, unless it was to wait for one of these values.
namespace DeferredAttributes
open Expression

theorem ValueType.fromNumber_type {type : ValueType} {number : Float} {value : Value}
    (done : type.fromNumber number = .ok value) : value.type? = some type := by
  unfold fromNumber at done
  split at done
  · cases done; rfl
  · cases done; rfl
  · split at done
    · split at done
      · cases done; rfl
      · cases done
    · cases done
  · cases done

theorem ValueType.parseLiteral_type {type : ValueType} {raw : String} {value : Value}
    (done : type.parseLiteral raw = .ok value) : value.type? = some type := by
  unfold parseLiteral at done
  dsimp only at done
  cases type with
  | string => cases done; rfl
  | boolean =>
    dsimp only at done
    split at done
    · cases done; rfl
    · split at done
      · cases done; rfl
      · cases done
  | integer =>
    dsimp only at done
    split at done
    · split at done
      · cases done; rfl
      · cases done
    · cases done
  | decimal =>
    dsimp only at done
    split at done
    · cases done; rfl
    · cases done

theorem ResolveError.ofExpression_blocked {error : ExpressionError} {key : Key}
    (blocked : ofExpression error = .blocked key) : ∃ text, error = .lookup text (.notInitialized key) := by
  cases error with
  | malformed expression fault => cases blocked
  | lookup text error =>
    cases error with
    | notInitialized other => cases blocked; exact ⟨text,rfl⟩
    | unknown name => cases blocked
    | notNumeric path type => cases blocked
    | invalidPath path => cases blocked
    | unknownVariable name => cases blocked
    | conversion path source => cases blocked

namespace Resolver

-- The resolvers whose answers depend on the text and the scope alone.
def builtin : Resolver → Bool
  | .custom .. => false
  | _ => true

theorem builtin_ofType (type : ValueType) : (ofType type).builtin = true := by
  unfold ofType
  split <;> rfl

theorem type_ofType (type : ValueType) : (ofType type).type = type := by
  unfold ofType
  split <;> rfl

theorem converted_blocked {result : Except ConversionError Value} {key : Key} :
    converted result ≠ .error (.blocked key) := by
  cases result <;> intro impossible <;> cases impossible

section
variable {r : Resolver} (builtin : r.builtin = true)
include builtin

theorem asked_builtin : r.asked = r := by
  cases r with
  | custom => cases builtin
  | literal | expression => rfl

theorem resolve_stable {t t' : Tree} (more : t.Extends t') (raw : String) (node : Nat) (environment : Environment)
    (volatile : Bool) :
    r.resolve raw ⟨t,node,environment⟩ volatile = r.resolve raw ⟨t',node,environment⟩ volatile ∨
      ∃ key, (r.resolve raw ⟨t,node,environment⟩ volatile).1 = .error (.blocked key) ∧
        (t'.stored? key).isSome = true := by
  cases r with
  | custom => cases builtin
  | literal type => exact .inl rfl
  | expression type =>
    unfold resolve
    rcases evaluate_stable (Scope.lookup_stable more node environment) raw volatile with
      same | ⟨key,after,stopped,member⟩
    · exact .inl (by simp only [same])
    · exact .inr ⟨key,by simp only [stopped]; rfl,member⟩

theorem resolve_waits {raw : String} {s : Scope} {volatile : Bool} {key : Key}
    (waits : (r.resolve raw s volatile).1 = .error (.blocked key)) :
    s.tree.declares key.name key.node = true ∧ s.tree.stored? key = none := by
  cases r with
  | custom => cases builtin
  | literal type => exact absurd waits converted_blocked
  | expression type =>
    unfold resolve at waits
    dsimp only at waits
    split at waits
    · exact absurd waits converted_blocked
    · rename_i error after failed
      simp only [Except.error.injEq] at waits
      obtain ⟨text,rfl⟩ := ResolveError.ofExpression_blocked waits
      obtain ⟨name,flag,asked⟩ := evaluate_error volatile (congrArg Prod.fst failed)
      exact Scope.lookup_waits asked

theorem resolve_type {raw : String} {s : Scope} {volatile : Bool} {value : Value}
    (done : (r.resolve raw s volatile).1 = .ok value) : value.type? = some r.type := by
  cases r with
  | custom => cases builtin
  | literal type =>
    simp only [resolve] at done
    cases parsed : type.parseLiteral raw with
    | error error => rw [parsed] at done; cases done
    | ok found =>
      rw [parsed] at done
      cases done
      exact ValueType.parseLiteral_type parsed
  | expression type =>
    unfold resolve at done
    dsimp only at done
    split at done
    · rename_i number after _
      cases made : type.fromNumber number with
      | error error => rw [made] at done; cases done
      | ok found =>
        rw [made] at done
        cases done
        exact ValueType.fromNumber_type made
    · cases done

end
end Resolver

namespace Assignment

-- The value that the raw text comes to over a tree, one that the key can hold, and whether
-- no refresh can change it.
def answer (environment : Environment) (t : Tree) (a : Assignment) : Except ResolveError (Value × Bool) :=
  match a.resolver.resolve a.raw ⟨t,a.target.node,environment⟩ false with
  | (.error error,_) => .error error
  | (.ok value,read) =>
    match t.refusal? a.target value with
    | some error => .error (.store error)
    | none => .ok (value,!a.volatile && !read)

theorem answer_type {environment : Environment} {t : Tree} {a : Assignment} {entry : Entry} {value : Value}
    {deterministic : Bool} (found : t.slot? a.target = some entry)
    (done : a.answer environment t = .ok (value,deterministic)) : value.type? = some entry.type := by
  unfold answer at done
  split at done
  · cases done
  · split at done
    · cases done
    · rename_i accepted
      cases done
      exact (Tree.refusal_typed found).mp accepted

theorem execute_answer (environment : Environment) {t : Tree} {a : Assignment} {entry : Entry}
    (found : t.slot? a.target = some entry) :
    a.execute environment t = match a.answer environment t with
      | .error error => .error error
      | .ok (value,deterministic) =>
        .ok (⟨deterministic,a.rejection value⟩,t.put a.target entry value deterministic) := by
  unfold execute answer
  rcases a.resolver.resolve a.raw ⟨t,a.target.node,environment⟩ false with ⟨error | value,read⟩
  · rfl
  · dsimp only
    rw [Tree.write_put found]
    cases t.refusal? a.target value <;> rfl

section
variable {environment : Environment} {t : Tree} {a : Assignment} (builtin : a.resolver.builtin = true)
include builtin

theorem asked_self : a.asked = a := by
  unfold asked
  rw [Resolver.asked_builtin builtin]

theorem answer_stable {t' : Tree} (more : t.Extends t') :
    a.answer environment t = a.answer environment t' ∨
      ∃ key, a.answer environment t = .error (.blocked key) ∧ (t'.stored? key).isSome = true := by
  unfold answer
  rcases Resolver.resolve_stable builtin more a.raw a.target.node environment false with same | ⟨key,stopped,member⟩
  · exact .inl (by simp only [same,more.shape.refusal])
  · right
    refine ⟨key,?_,member⟩
    split
    · rename_i failed
      rw [failed] at stopped
      cases stopped
      rfl
    · rename_i done
      rw [done] at stopped
      cases stopped

theorem answer_kept {t' : Tree} (more : t.Extends t') {error : ResolveError}
    (failed : a.answer environment t = .error error) (blank : ∀ key, error = .blocked key → t'.stored? key = none) :
    a.answer environment t' = .error error := by
  rcases answer_stable builtin more with same | ⟨key,stopped,member⟩
  · rw [← same,failed]
  · rw [failed] at stopped
    cases stopped
    rw [blank key rfl] at member
    cases member

theorem answer_done {t' : Tree} (more : t.Extends t') {content : Value × Bool}
    (done : a.answer environment t = .ok content) : a.answer environment t' = .ok content := by
  rcases answer_stable builtin more with same | ⟨key,stopped,_⟩
  · rw [← same,done]
  · rw [done] at stopped
    cases stopped

theorem answer_waits {key : Key} (waits : a.answer environment t = .error (.blocked key)) :
    t.declares key.name key.node = true ∧ t.stored? key = none := by
  unfold answer at waits
  split at waits
  · rename_i failed
    cases waits
    exact Resolver.resolve_waits builtin (congrArg Prod.fst failed)
  · split at waits <;> cases waits

end
end Assignment
end DeferredAttributes
