import DeferredAttributes.Proofs.Resolver.Reads

-- Which values a refresh may change, told by what the text names: variables of the host's, and
-- keys whose own values may change.
namespace DeferredAttributes
open Expression

def Tree.Unsteady (t : Tree) (node : Nat) (name : String) : Prop :=
  (∃ rest, name.toList = '$' :: rest) ∨
    ∃ key value, t.locate node name = .ok key ∧ t.stored? key = some (value,false)

theorem Tree.unsteady_reference {t : Tree} {node : Nat} {name : String} :
    t.Unsteady node name ↔ (∃ binding, t.reference node name = .host binding) ∨
      ∃ key value, t.reference node name = .leads key ∧ t.stored? key = some (value,false) := by
  unfold Unsteady
  by_cases host : ∃ rest, name.toList = '$' :: rest
  · obtain ⟨rest,named⟩ := host
    have known : t.reference node name = .host (String.ofList rest) := by
      simp only [reference,named]
    exact ⟨fun _ => .inl ⟨_,known⟩,fun _ => .inl ⟨rest,named⟩⟩
  · have path := t.reference_path node fun rest named => host ⟨rest,named⟩
    rw [path]
    cases t.locate node name with
    | error error => simp [host]
    | ok key => simp [host]

section
variable {t : Tree} {node : Nat} {environment : Environment} {name : String} {names : List String}
  {volatile after : Bool}

theorem Scope.lookup_flag {x : Float} (found : lookup ⟨t,node,environment⟩ name volatile = (.ok x,after)) :
    after = true ↔ volatile = true ∨ t.Unsteady node name := by
  rw [Tree.unsteady_reference]
  rw [lookup_reference] at found
  cases leads : t.reference node name with
  | host binding =>
    rw [leads] at found
    cases known : environment binding with
    | none => simp [known] at found
    | some y =>
      simp only [known,Option.elim_some,Prod.mk.injEq] at found
      simp [← found.2]
  | nowhere error =>
    rw [leads] at found
    cases found
  | leads key =>
    rw [leads] at found
    rcases holds : t.stored? key with _ | ⟨value,deterministic⟩
    · simp [holds] at found
    · cases number : value.number? with
      | none => simp [holds,number] at found
      | some y =>
        simp only [holds,number,Option.elim_some,Prod.mk.injEq] at found
        rw [← found.2]
        cases deterministic <;> simp [holds]

theorem answers_flag {numbers : List Float}
    (found : answers (Scope.lookup ⟨t,node,environment⟩) names volatile = (.ok numbers,after)) :
    after = true ↔ volatile = true ∨ ∃ name ∈ names, t.Unsteady node name := by
  induction names generalizing volatile numbers with
  | nil =>
    cases found
    simp
  | cons name rest ih =>
    obtain ⟨x,next,more,asked,later,_⟩ := answers_cons_ok.mp found
    rw [ih later,Scope.lookup_flag asked,or_assoc]
    simp only [List.mem_cons,exists_eq_or_imp]

end

theorem Assignment.answer_flag {environment : Environment} {t : Tree} {a : Assignment} {value : Value}
    {deterministic : Bool} (builtin : a.resolver.builtin = true) (checked : a.resolver.check a.raw = .ok ())
    (answered : a.answer environment t = .ok (value,deterministic)) :
    deterministic = false ↔
      a.volatile = true ∨ ∃ name ∈ a.resolver.names a.raw, t.Unsteady a.target.node name := by
  obtain ⟨made,resolves⟩ := Resolver.resolve_answers builtin checked
  unfold answer at answered
  rw [resolves] at answered
  rcases asked : answers (Scope.lookup ⟨t,a.target.node,environment⟩) (a.resolver.names a.raw) false with
    ⟨error | numbers,after⟩
  · rw [asked] at answered
    cases answered
  · have flag := answers_flag asked
    rw [asked] at answered
    dsimp only at answered
    have known : deterministic = (!a.volatile && !after) := by
      cases content : Resolver.converted (made numbers) with
      | error error => simp [content] at answered
      | ok value => cases refused : t.refusal? a.target value <;> simp_all
    simp only [Bool.false_eq_true,false_or] at flag
    rw [known,← flag]
    cases a.volatile <;> cases after <;> simp

end DeferredAttributes
