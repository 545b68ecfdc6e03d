import DeferredAttributes.Proofs.Expression.Asking
import DeferredAttributes.Proofs.Resolution.Answer

-- Which keys an attribute reads, told by its text and the shape of the tree alone. What
-- these keys hold is all that its value depends on, variables of the host's apart.
namespace DeferredAttributes
open Expression

inductive Reference where
  | host (binding : String)
  | nowhere (error : LookupError)
  | leads (key : Key)

def Reference.key? : Reference → Option Key
  | .leads key => some key
  | .host _ | .nowhere _ => none

namespace Tree

def reference (t : Tree) (node : Nat) (name : String) : Reference :=
  match name.toList with
  | '$' :: rest => .host (String.ofList rest)
  | _ =>
    match t.locate node name with
    | .error error => .nowhere error
    | .ok key => .leads key

theorem reference_path (t : Tree) (node : Nat) {name : String} (plain : ∀ rest, name.toList ≠ '$' :: rest) :
    t.reference node name = match t.locate node name with
      | .error error => .nowhere error
      | .ok key => .leads key := by
  unfold reference
  split
  · rename_i rest named
    exact absurd named (plain rest)
  · rfl

theorem SameShape.reference {t t' : Tree} (same : t.SameShape t') (node : Nat) (name : String) :
    t'.reference node name = t.reference node name := by
  unfold Tree.reference
  rw [same.locate]

theorem reference_nowhere {t : Tree} {node : Nat} {name : String} {error : LookupError}
    (lost : t.reference node name = .nowhere error) : LeadsNowhere name error := by
  unfold reference at lost
  split at lost
  · cases lost
  · split at lost
    · rename_i failed
      cases lost
      exact locate_error failed
    · cases lost

end Tree

def Resolver.names (r : Resolver) (raw : String) : List String :=
  match r with
  | .expression _ => Expression.asked (tokens raw)
  | .literal _ | .custom .. => []

theorem Resolver.names_asked {r : Resolver} {raw name : String} (named : name ∈ r.names raw) :
    name ∈ Expression.asked (tokens raw) := by
  cases r with
  | expression type => exact named
  | literal | custom => cases named

def Tree.keysRead (t : Tree) (node : Nat) (names : List String) : List Key :=
  names.filterMap fun name => (t.reference node name).key?

def Assignment.reads (t : Tree) (a : Assignment) : List Key :=
  t.keysRead a.target.node (a.resolver.names a.raw)

theorem Tree.keysRead_agree {t t' : Tree} {node : Nat} {names : List String}
    (same : ∀ name ∈ names, t'.reference node name = t.reference node name) :
    t'.keysRead node names = t.keysRead node names := by
  unfold keysRead
  induction names with
  | nil => rfl
  | cons name rest ih =>
    rw [List.filterMap_cons,List.filterMap_cons,same name List.mem_cons_self,
      ih fun other member => same other (List.mem_cons_of_mem _ member)]

theorem Tree.SameShape.keysRead {t t' : Tree} (same : t.SameShape t') (node : Nat) (names : List String) :
    t'.keysRead node names = t.keysRead node names :=
  keysRead_agree fun name _ => same.reference node name

theorem Tree.SameShape.reads {t t' : Tree} (same : t.SameShape t') (a : Assignment) : a.reads t' = a.reads t :=
  same.keysRead a.target.node (a.resolver.names a.raw)

structure Assignment.Sees (t t' : Tree) (a : Assignment) : Prop where
  references : ∀ name ∈ a.resolver.names a.raw, t'.reference a.target.node name = t.reference a.target.node name
  refusal : ∀ value, t'.refusal? a.target value = t.refusal? a.target value

theorem Tree.SameShape.sees {t t' : Tree} (same : t.SameShape t') (a : Assignment) : a.Sees t t' :=
  ⟨fun name _ => same.reference a.target.node name,fun value => same.refusal a.target value⟩

theorem Assignment.Sees.trans {t m t' : Tree} {a : Assignment} (first : a.Sees t m) (second : a.Sees m t') : a.Sees t t' :=
  ⟨fun name member => (second.references name member).trans (first.references name member),
    fun value => (second.refusal value).trans (first.refusal value)⟩

theorem Assignment.Sees.reads {t t' : Tree} {a : Assignment} (sees : a.Sees t t') : a.reads t' = a.reads t :=
  Tree.keysRead_agree sees.references

theorem Tree.mem_keysRead {t : Tree} {node : Nat} {names : List String} {key : Key} :
    key ∈ t.keysRead node names ↔ ∃ name ∈ names, t.reference node name = .leads key := by
  unfold keysRead
  rw [List.mem_filterMap]
  apply exists_congr
  intro name
  apply and_congr_right
  intro _
  cases t.reference node name <;> simp [Reference.key?]

theorem Tree.keysRead_cons {t : Tree} {node : Nat} {name : String} {names : List String} {key : Key}
    (member : key ∈ t.keysRead node names) : key ∈ t.keysRead node (name :: names) := by
  obtain ⟨other,present,leads⟩ := mem_keysRead.mp member
  exact mem_keysRead.mpr ⟨other,List.mem_cons_of_mem _ present,leads⟩

namespace Scope
variable {t t' : Tree} {node : Nat} {environment : Environment} {name : String} {key : Key} {volatile : Bool}

theorem lookup_reference (t : Tree) (node : Nat) (environment : Environment) (name : String) (volatile : Bool) :
    lookup ⟨t,node,environment⟩ name volatile = match t.reference node name with
      | .host binding => (environment binding).elim (.error (.unknownVariable binding),true) fun x => (.ok x,true)
      | .nowhere error => (.error error,volatile)
      | .leads key =>
        match t.stored? key with
        | none => (.error (.notInitialized key),volatile)
        | some (value,deterministic) =>
          (value.number?.elim (.error (.notNumeric name (typeName value))) .ok,volatile || !deterministic) := by
  unfold lookup
  split
  · rename_i rest named
    have host : t.reference node name = .host (String.ofList rest) := by simp [Tree.reference,named]
    rw [host]
    dsimp only
    cases environment (String.ofList rest) <;> rfl
  · rename_i plain
    rw [Tree.reference_path t node plain]
    cases found : t.locate node name with
    | error error => simp only [get,found]
    | ok key =>
      simp only [get_stored ⟨t,node,environment⟩ found]
      rcases t.stored? key with _ | ⟨value,deterministic⟩
      · rfl
      · dsimp only
        cases value.number? <;> rfl

theorem lookup_agree (same : t'.reference node name = t.reference node name) (environment : Environment)
    (volatile : Bool) (kept : ∀ key, t.reference node name = .leads key → t'.stored? key = t.stored? key) :
    lookup ⟨t',node,environment⟩ name volatile = lookup ⟨t,node,environment⟩ name volatile := by
  rw [lookup_reference,lookup_reference,same]
  cases leads : t.reference node name with
  | host | nowhere => rfl
  | leads key => simp only [kept key leads]

theorem lookup_blocked (blocked : (lookup ⟨t,node,environment⟩ name volatile).1 = .error (.notInitialized key)) :
    t.reference node name = .leads key ∧ t.stored? key = none := by
  rw [lookup_reference] at blocked
  cases leads : t.reference node name with
  | host binding =>
    rw [leads] at blocked
    cases known : environment binding <;> simp [known] at blocked
  | nowhere error =>
    rw [leads] at blocked
    cases blocked
    rcases Tree.reference_nowhere leads with impossible | impossible <;> cases impossible
  | leads other =>
    rw [leads] at blocked
    rcases holds : t.stored? other with _ | ⟨value,deterministic⟩
    · simp only [holds] at blocked
      cases blocked
      exact ⟨rfl,holds⟩
    · cases number : value.number? <;> simp [holds,number] at blocked

theorem lookup_known {x : Float} (found : (lookup ⟨t,node,environment⟩ name volatile).1 = .ok x)
    (leads : t.reference node name = .leads key) : (t.stored? key).isSome = true := by
  rw [lookup_reference,leads] at found
  cases holds : t.stored? key with
  | some content => rfl
  | none =>
    simp only [holds] at found
    cases found

theorem lookup_steady {x : Float} (found : lookup ⟨t,node,environment⟩ name volatile = (.ok x,false)) :
    volatile = false ∧ ∃ key value, t.reference node name = .leads key ∧ t.stored? key = some (value,true) ∧
      value.number? = some x := by
  rw [lookup_reference] at found
  cases leads : t.reference node name with
  | host binding =>
    rw [leads] at found
    cases known : environment binding <;> simp [known] at found
  | nowhere error =>
    rw [leads] at found
    cases found
  | leads key =>
    rw [leads] at found
    rcases holds : t.stored? key with _ | ⟨value,deterministic⟩
    · simp [holds] at found
    · cases number : value.number? with
      | none => simp [holds,number] at found
      | some y =>
        cases deterministic <;> simp [holds,number] at found
        exact ⟨found.2,key,value,rfl,holds,by rw [number,found.1]⟩

end Scope

section
variable {t t' : Tree} {node : Nat} {environment : Environment} {names : List String} {volatile after : Bool}

theorem answers_agree (same : ∀ name ∈ names, t'.reference node name = t.reference node name)
    (environment : Environment) (volatile : Bool)
    (kept : ∀ key ∈ t.keysRead node names, t'.stored? key = t.stored? key) :
    answers (Scope.lookup ⟨t',node,environment⟩) names volatile =
      answers (Scope.lookup ⟨t,node,environment⟩) names volatile := by
  induction names generalizing volatile with
  | nil => rfl
  | cons name rest ih =>
    have first := Scope.lookup_agree (same name List.mem_cons_self) environment volatile fun key leads =>
      kept key (Tree.mem_keysRead.mpr ⟨name,List.mem_cons_self,leads⟩)
    have later := fun volatile => ih (fun other member => same other (List.mem_cons_of_mem _ member)) volatile
      fun key member => kept key (Tree.keysRead_cons member)
    simp only [answers,first,later]

theorem answers_blocked {key : Key}
    (blocked : answers (Scope.lookup ⟨t,node,environment⟩) names volatile = (.error (.notInitialized key),after)) :
    (t.keysRead node names).find? (fun key => (t.stored? key).isNone) = some key := by
  induction names generalizing volatile with
  | nil => cases blocked
  | cons name rest ih =>
    rcases answers_cons_error.mp blocked with asked | ⟨x,next,asked,later⟩
    · obtain ⟨leads,blank⟩ := Scope.lookup_blocked (congrArg Prod.fst asked)
      simp [Tree.keysRead,Reference.key?,leads,blank]
    · have found := ih later
      unfold Tree.keysRead at found ⊢
      cases leads : t.reference node name with
      | host | nowhere => simpa [leads,Reference.key?] using found
      | leads other =>
        have has := Scope.lookup_known (congrArg Prod.fst asked) leads
        simpa [leads,Reference.key?,Option.isSome_iff_ne_none.mp has] using found

theorem answers_known {numbers : List Float} {key : Key}
    (found : answers (Scope.lookup ⟨t,node,environment⟩) names volatile = (.ok numbers,after))
    (member : key ∈ t.keysRead node names) : (t.stored? key).isSome = true := by
  induction names generalizing volatile numbers with
  | nil => cases member
  | cons name rest ih =>
    obtain ⟨x,next,more,asked,later,_⟩ := answers_cons_ok.mp found
    obtain ⟨other,present,leads⟩ := Tree.mem_keysRead.mp member
    rcases List.mem_cons.mp present with rfl | behind
    · exact Scope.lookup_known (congrArg Prod.fst asked) leads
    · exact ih later (Tree.mem_keysRead.mpr ⟨other,behind,leads⟩)

theorem answers_steady {numbers : List Float} (same : t.SameShape t') (environment' : Environment)
    (kept : ∀ key ∈ t.keysRead node names, ∀ value,
      t.stored? key = some (value,true) → t'.stored? key = some (value,true))
    (found : answers (Scope.lookup ⟨t,node,environment⟩) names volatile = (.ok numbers,false)) :
    volatile = false ∧ answers (Scope.lookup ⟨t',node,environment'⟩) names volatile = (.ok numbers,false) := by
  induction names generalizing volatile numbers with
  | nil =>
    cases found
    exact ⟨rfl,rfl⟩
  | cons name rest ih =>
    obtain ⟨x,next,more,asked,later,rfl⟩ := answers_cons_ok.mp found
    obtain ⟨rfl,behind⟩ := ih (fun key member => kept key (Tree.keysRead_cons member)) later
    obtain ⟨rfl,key,value,leads,holds,number⟩ := Scope.lookup_steady asked
    have holds' := kept key (Tree.mem_keysRead.mpr ⟨name,List.mem_cons_self,leads⟩) value holds
    refine ⟨rfl,answers_cons_ok.mpr ⟨x,false,more,?_,behind,rfl⟩⟩
    rw [Scope.lookup_reference,same.reference,leads]
    simp [holds',number]

end

theorem Resolver.resolve_answers {r : Resolver} {raw : String} (builtin : r.builtin = true)
    (checked : r.check raw = .ok ()) :
    ∃ made : List Float → Except ConversionError Value, ∀ (scope : Scope) (volatile : Bool),
      r.resolve raw scope volatile = match answers scope.lookup (r.names raw) volatile with
        | (.error error,volatile) => (.error (.ofLookup error),volatile)
        | (.ok numbers,volatile) => (converted (made numbers),volatile) := by
  cases r with
  | custom => cases builtin
  | literal type => exact ⟨fun _ => type.parseLiteral raw,fun _ _ => rfl⟩
  | expression type =>
    have accepted : Expression.check raw = .ok () := by
      unfold check at checked
      dsimp only at checked
      split at checked
      · rename_i fine
        exact fine
      · cases checked
    obtain ⟨e,parsed⟩ := check_parse.mp accepted
    refine ⟨fun numbers => type.fromNumber (e.value numbers),?_⟩
    intro scope volatile
    simp only [resolve,evaluate_answers parsed,names]
    rcases answers scope.lookup (Expression.asked (tokens raw)) volatile with ⟨error | numbers,after⟩ <;> rfl

namespace Assignment
variable {environment : Environment} {t t' : Tree} {a : Assignment} (builtin : a.resolver.builtin = true)
  (checked : a.resolver.check a.raw = .ok ())
include builtin checked

theorem answer_alike (sees : a.Sees t t') (kept : ∀ key ∈ a.reads t, t'.stored? key = t.stored? key) :
    a.answer environment t' = a.answer environment t := by
  obtain ⟨made,resolves⟩ := Resolver.resolve_answers builtin checked
  unfold answer
  simp only [resolves,answers_agree sees.references environment false kept,sees.refusal]

theorem answer_agree (same : t.SameShape t') (kept : ∀ key ∈ a.reads t, t'.stored? key = t.stored? key) :
    a.answer environment t' = a.answer environment t :=
  answer_alike builtin checked (same.sees a) kept

theorem answer_blocked {key : Key} (waits : a.answer environment t = .error (.blocked key)) :
    (a.reads t).find? (fun key => (t.stored? key).isNone) = some key := by
  obtain ⟨made,resolves⟩ := Resolver.resolve_answers builtin checked
  unfold answer at waits
  rw [resolves] at waits
  rcases asked : answers (Scope.lookup ⟨t,a.target.node,environment⟩) (a.resolver.names a.raw) false with
    ⟨error | numbers,after⟩
  · rw [asked] at waits
    have stopped : ResolveError.ofExpression (.lookup a.raw error) = .blocked key := Except.error.inj waits
    obtain ⟨text,same⟩ := ResolveError.ofExpression_blocked stopped
    cases same
    exact answers_blocked asked
  · rw [asked] at waits
    dsimp only at waits
    split at waits
    · rename_i failed
      cases waits
      exact absurd (congrArg Prod.fst failed) Resolver.converted_blocked
    · split at waits <;> cases waits

theorem answer_known {content : Value × Bool} (done : a.answer environment t = .ok content) :
    ∀ key ∈ a.reads t, (t.stored? key).isSome = true := by
  obtain ⟨made,resolves⟩ := Resolver.resolve_answers builtin checked
  unfold answer at done
  rw [resolves] at done
  rcases asked : answers (Scope.lookup ⟨t,a.target.node,environment⟩) (a.resolver.names a.raw) false with
    ⟨error | numbers,after⟩
  · rw [asked] at done
    cases done
  · exact fun key member => answers_known asked member

theorem answer_steady {value : Value} (environment' : Environment) (same : t.SameShape t')
    (kept : ∀ key ∈ a.reads t, ∀ value, t.stored? key = some (value,true) → t'.stored? key = some (value,true))
    (done : a.answer environment t = .ok (value,true)) : a.answer environment' t' = .ok (value,true) := by
  obtain ⟨made,resolves⟩ := Resolver.resolve_answers builtin checked
  unfold answer at done ⊢
  rw [resolves] at done ⊢
  rcases asked : answers (Scope.lookup ⟨t,a.target.node,environment⟩) (a.resolver.names a.raw) false with
    ⟨error | numbers,after⟩
  · rw [asked] at done
    cases done
  · rw [asked] at done
    dsimp only at done
    have down : after = false := by
      cases known : Resolver.converted (made numbers) with
      | error error => simp [known] at done
      | ok value => cases refused : t.refusal? a.target value <;> simp_all
    rw [down] at asked done
    rw [(answers_steady same environment' kept asked).2]
    simp only [same.refusal]
    exact done

end Assignment
end DeferredAttributes
