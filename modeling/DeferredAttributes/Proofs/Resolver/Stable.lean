import DeferredAttributes.Proofs.Tree.Stored
import DeferredAttributes.Resolver.Basic

-- Reading over a tree and over one with more values. The two give the same, the raised flag
-- included, unless the first stops at a key that has its value only in the second.
namespace DeferredAttributes

namespace Expression

def Stops {σ α : Type} (among : Key → Prop) (r : Except LookupError α × σ) : Prop :=
  ∃ key s, r = (.error (.notInitialized key),s) ∧ among key

section
variable {σ : Type} {source source' : Source σ} {among : Key → Prop}
  (agree : ∀ name s, source name s = source' name s ∨ Stops among (source name s))
include agree

theorem Expr.eval_stable (e : Expr) (s : σ) :
    e.eval source s = e.eval source' s ∨ Stops among (e.eval source s) := by
  induction e generalizing s with
  | number x => exact .inl rfl
  | name identifier => exact agree identifier s
  | unary op operand ih =>
    rcases ih s with same | ⟨key,after,stopped,member⟩
    · exact .inl (by simp only [Expr.eval,same])
    · exact .inr ⟨key,after,by simp only [Expr.eval,stopped],member⟩
  | binary op left right ihLeft ihRight =>
    rcases ihLeft s with same | ⟨key,after,stopped,member⟩
    · cases first : left.eval source' s with
      | mk outcome middle =>
        rw [first] at same
        cases outcome with
        | error error => exact .inl (by simp only [Expr.eval,same,first])
        | ok x =>
          rcases ihRight middle with same' | ⟨key,after,stopped,member⟩
          · exact .inl (by simp only [Expr.eval,same,first,same'])
          · exact .inr ⟨key,after,by simp only [Expr.eval,same,stopped],member⟩
    · exact .inr ⟨key,after,by simp only [Expr.eval,stopped],member⟩

theorem askAll_stable (names : List String) (s : σ) :
    askAll source names s = askAll source' names s ∨ Stops among (askAll source names s) := by
  induction names generalizing s with
  | nil => exact .inl rfl
  | cons name rest ih =>
    rcases agree name s with same | ⟨key,after,stopped,member⟩
    · cases first : source' name s with
      | mk outcome middle =>
        rw [first] at same
        cases outcome with
        | error error => exact .inl (by simp only [askAll,same,first])
        | ok x =>
          rcases ih middle with same' | ⟨key,after,stopped,member⟩
          · exact .inl (by simp only [askAll,same,first,same'])
          · exact .inr ⟨key,after,by simp only [askAll,same,stopped],member⟩
    · exact .inr ⟨key,after,by simp only [askAll,stopped],member⟩

theorem evaluate_stable (text : String) (s : σ) :
    evaluate source text s = evaluate source' text s ∨
      ∃ key s', evaluate source text s = (.error (.lookup text (.notInitialized key)),s') ∧ among key := by
  unfold evaluate
  obtain ⟨names,outcome⟩ := parse text
  cases outcome with
  | ok e =>
    rcases Expr.eval_stable agree e s with same | ⟨key,after,stopped,member⟩
    · exact .inl (by simp only [same])
    · exact .inr ⟨key,after,by simp only [stopped],member⟩
  | error fault =>
    rcases askAll_stable agree names s with same | ⟨key,after,stopped,member⟩
    · exact .inl (by simp only [same])
    · exact .inr ⟨key,after,by simp only [stopped],member⟩

end

section
variable {σ : Type} {source : Source σ} {error : LookupError}

theorem Expr.eval_error (e : Expr) (s : σ) (failed : (e.eval source s).1 = .error error) :
    ∃ name s', (source name s').1 = .error error := by
  induction e generalizing s with
  | number x => cases failed
  | name identifier => exact ⟨identifier,s,failed⟩
  | unary op operand ih =>
    cases first : operand.eval source s with
    | mk outcome middle =>
      cases outcome with
      | error other => exact ih s (by simpa only [Expr.eval,first] using failed)
      | ok x => simp only [Expr.eval,first] at failed; cases failed
  | binary op left right ihLeft ihRight =>
    cases first : left.eval source s with
    | mk outcome middle =>
      cases outcome with
      | error other => exact ihLeft s (by simpa only [Expr.eval,first] using failed)
      | ok x =>
        cases second : right.eval source middle with
        | mk outcome' after =>
          cases outcome' with
          | error other => exact ihRight middle (by simpa only [Expr.eval,first,second] using failed)
          | ok y => simp only [Expr.eval,first,second] at failed; cases failed

theorem askAll_error (names : List String) (s : σ) (failed : (askAll source names s).1 = .error error) :
    ∃ name s', (source name s').1 = .error error := by
  induction names generalizing s with
  | nil => cases failed
  | cons name rest ih =>
    cases first : source name s with
    | mk outcome middle =>
      cases outcome with
      | error other =>
        simp only [askAll,first] at failed
        cases failed
        exact ⟨name,s,by rw [first]⟩
      | ok x => exact ih middle (by simpa only [askAll,first] using failed)

theorem evaluate_error {text text' : String} (s : σ)
    (failed : (evaluate source text s).1 = .error (.lookup text' error)) :
    ∃ name s', (source name s').1 = .error error := by
  unfold evaluate at failed
  split at failed
  · rename_i e _
    cases result : e.eval source s with
    | mk outcome' after =>
      cases outcome' with
      | ok x => rw [result] at failed; cases failed
      | error other =>
        rw [result] at failed
        cases failed
        exact Expr.eval_error e s (by rw [result])
  · rename_i names _ _
    cases result : askAll source names s with
    | mk outcome' after =>
      cases outcome' with
      | ok x => rw [result] at failed; cases failed
      | error other =>
        rw [result] at failed
        cases failed
        exact askAll_error names s (by rw [result])

end
end Expression

open Expression

namespace Scope

theorem get_stored (s : Scope) {path : String} {key : Key} (found : s.tree.locate s.node path = .ok key)
    (volatile : Bool) :
    s.get path volatile = match s.tree.stored? key with
      | some (value,deterministic) => (.ok value,volatile || !deterministic)
      | none => (.error (.notInitialized key),volatile) := by
  have declared := Tree.locate_declares found
  unfold get
  rw [found]
  simp only [Tree.read_stored declared,Tree.isDeterministic_stored declared]
  cases s.tree.stored? key with
  | none => rfl
  | some content => rfl

theorem get_stable {t t' : Tree} (more : t.Extends t') (node : Nat) (environment : Environment) (path : String)
    (volatile : Bool) :
    get ⟨t,node,environment⟩ path volatile = get ⟨t',node,environment⟩ path volatile ∨
      Stops (fun key => (t'.stored? key).isSome = true) (get ⟨t,node,environment⟩ path volatile) := by
  have located := more.shape.locate node path
  cases found : t.locate node path with
  | error error =>
    left
    unfold get
    rw [located,found]
  | ok key =>
    rw [found] at located
    have before := get_stored ⟨t,node,environment⟩ found volatile
    have after := get_stored ⟨t',node,environment⟩ located volatile
    cases old : t.stored? key with
    | some content =>
      have kept := more.kept key content old
      left
      rw [before,after]
      simp only [old,kept]
    | none =>
      cases new : t'.stored? key with
      | none => left; rw [before,after]; simp only [old,new]
      | some content =>
        right
        rw [before]
        simp only [old]
        exact ⟨key,volatile,rfl,Option.isSome_iff_exists.mpr ⟨content,new⟩⟩

theorem lookup_stable {t t' : Tree} (more : t.Extends t') (node : Nat) (environment : Environment) (name : String)
    (volatile : Bool) :
    lookup ⟨t,node,environment⟩ name volatile = lookup ⟨t',node,environment⟩ name volatile ∨
      Stops (fun key => (t'.stored? key).isSome = true) (lookup ⟨t,node,environment⟩ name volatile) := by
  unfold lookup
  split
  · exact .inl rfl
  · rcases get_stable more node environment name volatile with same | ⟨key,after,stopped,member⟩
    · exact .inl (by simp only [same])
    · exact .inr ⟨key,after,by simp only [stopped],member⟩

theorem lookup_waits {s : Scope} {name : String} {volatile : Bool} {key : Key}
    (waits : (s.lookup name volatile).1 = .error (.notInitialized key)) :
    s.tree.declares key.name key.node = true ∧ s.tree.stored? key = none := by
  unfold lookup at waits
  split at waits
  · split at waits <;> cases waits
  · cases found : s.tree.locate s.node name with
    | error error =>
      simp only [get,found] at waits
      cases waits
      rcases Tree.locate_error found with impossible | impossible <;> cases impossible
    | ok other =>
      rw [get_stored s found] at waits
      cases old : s.tree.stored? other with
      | none =>
        simp only [old] at waits
        cases waits
        exact ⟨Tree.locate_declares found,old⟩
      | some content =>
        simp only [old] at waits
        split at waits <;> cases waits

end Scope
end DeferredAttributes
