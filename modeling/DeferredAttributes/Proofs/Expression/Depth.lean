import DeferredAttributes.Proofs.Expression.Descent

-- How deep the calls go. On each of at most 64 levels of nesting six statements are open, since
-- each one inside another takes only what binds tighter, and one operand.
namespace DeferredAttributes.Expression

section
variable {σ : Type} {p : Descent σ} {d : Cursor} {text : String} {source : Source σ} {allowed : Moment → Bool}

namespace Returned

theorem andThen_depth {r : Returned p} {next : Float → (q : Descent σ) → q.left ≤ p.left → Returned q}
    (kept : ∀ x q within, (next x q within).after.depth = q.depth) : (r.andThen next).after.depth = r.after.depth := by
  obtain ⟨outcome,q,within⟩ := r
  cases outcome with
  | error halt => rfl
  | ok x => exact kept x q within

end Returned

namespace Descent

theorem call_depth {opened : List Activation} {body : Unit → Returned (p.called opened)}
    (kept : (body ()).after.depth = p.depth) : (p.call allowed opened body).after.depth = p.depth := by
  unfold call
  split
  · exact kept
  · rfl

theorem nest_depth {body : Unit → Returned p.deeper} (kept : (body ()).after.depth = p.depth + 1) :
    (p.nest text body).after.depth = p.depth := by
  unfold nest
  split
  · rfl
  · exact congrArg (· - 1) kept

theorem closing_depth (x : Float) : (closing text x p).after.depth = p.depth := by
  unfold closing
  split <;> rfl

theorem identifier_depth (name : String) : (identifier text source name p).after.depth = p.depth := by
  unfold identifier
  split
  · rfl
  · split
    · rfl
    · split <;> rfl

mutual

theorem statement_depth (opened : List Activation) (least : Nat) (p : Descent σ) :
    (statement text source allowed opened least p).after.depth = p.depth := by
  rw [statement]
  apply call_depth
  rw [Returned.andThen_depth fun x q _ => operators_depth _ least x q]
  exact operand_depth _ (p.called _)
termination_by p.rank 2
decreasing_by
  · exact rank_within (by assumption) (by decide)
  · exact rank_within (Nat.le_refl _) (by decide)

theorem operators_depth (opened : List Activation) (least : Nat) (lhs : Float) (p : Descent σ) :
    (operators text source allowed opened least lhs p).after.depth = p.depth := by
  rw [operators]
  split
  · rfl
  · rfl
  · rfl
  · rename_i op d taken
    split
    · rfl
    · have shorter : (p.goTo d).left < p.left := next_shorter taken
      refine Eq.trans (Returned.andThen_depth fun rhs q within => ?_) (statement_depth opened (op.precedence + 1) (p.goTo d))
      have less : q.left < p.left := Nat.lt_of_le_of_lt within shorter
      exact operators_depth opened least (op.apply lhs rhs) q
  · rfl
  · rfl
termination_by p.rank 0
decreasing_by
  all_goals exact rank_shorter (by assumption) (by decide)

theorem operand_depth (opened : List Activation) (p : Descent σ) :
    (operand text source allowed opened p).after.depth = p.depth := by
  rw [operand]
  apply call_depth
  dsimp only
  split <;> rename_i taken
  · rfl
  · rfl
  · rfl
  · exact identifier_depth _
  · apply nest_depth
    rw [Returned.andThen_depth fun x q _ => closing_depth x]
    exact statement_depth _ _ _
  · apply nest_depth
    rw [Returned.andThen_depth fun _ _ _ => rfl]
    exact operand_depth _ _
  · apply nest_depth
    rw [Returned.andThen_depth fun _ _ _ => rfl]
    exact operand_depth _ _
  · rfl
termination_by p.rank 1
decreasing_by
  all_goals exact rank_shorter (next_shorter (by assumption)) (by decide)

end

end Descent
end

namespace Moment

-- Six statements on each of 65 levels of nesting, and one operand on each of them.
structure Bounded (m : Moment) : Prop where
  statements : m.statements ≤ 390
  operands : m.operands ≤ 65
  depth : m.depth = m.nested

end Moment

-- What is open between two calls: on every level that has been left for a deeper one there is one
-- operand, and on the level of the counter there are no more than so many statements.
structure Stacked (opened : List Activation) (depth own : Nat) : Prop where
  nested : opened.countP Activation.nests = depth
  operands : opened.countP Activation.isOperand = depth
  room : depth ≤ maxDepth
  statements : opened.countP Activation.isStatement ≤ 6 * depth + own

namespace Stacked
variable {opened : List Activation} {depth own more : Nat}

theorem mono (stacked : Stacked opened depth own) (least : own ≤ more) : Stacked opened depth more :=
  ⟨stacked.nested,stacked.operands,stacked.room,Nat.le_trans stacked.statements (Nat.add_le_add_left least _)⟩

theorem bounded (stacked : Stacked opened depth own) (most : own ≤ 6) : Moment.Bounded ⟨opened,depth⟩ := by
  obtain ⟨nested,operands,room,statements⟩ := stacked
  unfold maxDepth at room
  refine ⟨?_,?_,nested.symm⟩ <;> simp only [Moment.statements,Moment.operands] <;> omega

theorem statement (stacked : Stacked opened depth own) (least : Nat) :
    Stacked (.statement least :: opened) depth (own + 1) := by
  obtain ⟨nested,operands,room,statements⟩ := stacked
  refine ⟨?_,?_,room,?_⟩ <;>
    simp [List.countP_cons,Activation.nests,Activation.isOperand,Activation.isStatement] <;> omega

theorem operand (stacked : Stacked opened depth 6) : Moment.Bounded ⟨.operand :: opened,depth⟩ := by
  obtain ⟨nested,operands,room,statements⟩ := stacked
  unfold maxDepth at room
  constructor <;>
    simp [Moment.nested,Moment.operands,Moment.statements,List.countP_cons,Activation.nests,Activation.isOperand,
      Activation.isStatement] <;> omega

theorem deeper (stacked : Stacked opened depth 6) (room : depth < maxDepth) {a : Activation} (nests : a.nests = true) :
    Stacked (a :: .operand :: opened) (depth + 1) 0 := by
  obtain ⟨nested,operands,_,statements⟩ := stacked
  cases a with
  | statement | operand => cases nests
  | bracket | sign =>
    refine ⟨?_,?_,room,?_⟩ <;>
      simp [List.countP_cons,Activation.nests,Activation.isOperand,Activation.isStatement] <;> omega

end Stacked

structure Returned.Bounded {σ : Type} {p : Descent σ} (r : Returned p) : Prop where
  calls : ∀ m ∈ r.after.calls, m ∈ p.calls ∨ m.Bounded
  accepted : ∀ m, r.outcome ≠ .error (.refused m)

section
variable {σ : Type} {p : Descent σ} {d : Cursor} {text : String} {source : Source σ} {allowed : Moment → Bool}

namespace Returned.Bounded

theorem value (x : Float) : (Returned.value x : Returned p).Bounded :=
  ⟨fun _ member => .inl member,fun _ refused => by cases refused⟩

theorem fail (error : ExpressionError) : (Returned.fail error : Returned p).Bounded :=
  ⟨fun _ member => .inl member,fun _ refused => by cases refused⟩

theorem behind {next : Except TokenError (Option Token)} {taken : p.cursor.next = (next,d)} {r : Returned (p.goTo d)}
    (bounded : r.Bounded) : (Returned.behind taken r).Bounded :=
  ⟨bounded.calls,bounded.accepted⟩

theorem andThen {r : Returned p} {next : Float → (q : Descent σ) → q.left ≤ p.left → Returned q} (first : r.Bounded)
    (rest : ∀ x, r.outcome = .ok x → (next x r.after r.within).Bounded) : (r.andThen next).Bounded := by
  obtain ⟨outcome,q,within⟩ := r
  cases outcome with
  | error halt => exact first
  | ok x =>
    obtain ⟨calls,accepted⟩ := rest x rfl
    exact ⟨fun m member => (calls m member).elim (first.calls m) .inr,accepted⟩

end Returned.Bounded

namespace Descent
open Returned (Bounded)

theorem call_bounded {opened : List Activation} {body : Unit → Returned (p.called opened)}
    (here : Moment.Bounded ⟨opened,p.depth⟩) (accepted : allowed ⟨opened,p.depth⟩ = true) (later : (body ()).Bounded) :
    (p.call allowed opened body).Bounded := by
  unfold call
  rw [if_pos accepted]
  refine ⟨fun m member => ?_,later.accepted⟩
  rcases later.calls m member with before | bounded
  · rcases List.mem_cons.mp before with rfl | before
    · exact .inr here
    · exact .inl before
  · exact .inr bounded

theorem nest_bounded {body : Unit → Returned p.deeper} (inside : p.depth < maxDepth → (body ()).Bounded) :
    (p.nest text body).Bounded := by
  unfold nest
  split
  · exact .fail _
  · rename_i room
    obtain ⟨calls,accepted⟩ := inside (Nat.not_le.mp room)
    exact ⟨calls,accepted⟩

theorem closing_bounded (x : Float) : (closing text x p).Bounded := by
  unfold closing
  split
  · exact .behind (.fail _)
  · exact .behind (.value _)
  · exact .behind (.fail _)

theorem identifier_bounded (name : String) : (identifier text source name p).Bounded := by
  unfold identifier
  split
  · exact .value 1
  · split
    · exact .value 0
    · split <;> exact ⟨fun _ member => .inl member,fun _ refused => by cases refused⟩

mutual

theorem statement_bounded (permits : ∀ m : Moment, m.Bounded → allowed m = true) {opened : List Activation} {own : Nat}
    (least : Nat) (p : Descent σ) (stacked : Stacked opened p.depth own) (tighter : own < max 1 least) (most : own < 6) :
    (statement text source allowed opened least p).Bounded := by
  rw [statement]
  have inside := stacked.statement least
  refine call_bounded (inside.bounded most) (permits _ (inside.bounded most)) ?_
  let first := operand text source allowed (.statement least :: opened) (p.called (.statement least :: opened))
  have within : first.after.left ≤ p.left := first.within
  have again : Stacked (.statement least :: opened) first.after.depth (own + 1) := by
    rw [operand_depth]
    exact inside
  exact .andThen (operand_bounded permits (p.called _) (inside.mono most)) fun lhs _ =>
    operators_bounded permits least lhs first.after again tighter most
termination_by p.rank 2
decreasing_by
  · exact rank_within (Nat.le_refl _) (by decide)
  · exact rank_within (by assumption) (by decide)

theorem operators_bounded (permits : ∀ m : Moment, m.Bounded → allowed m = true) {opened : List Activation} {own : Nat}
    (least : Nat) (lhs : Float) (p : Descent σ) (stacked : Stacked opened p.depth own) (tight : own ≤ max 1 least)
    (most : own ≤ 6) : (operators text source allowed opened least lhs p).Bounded := by
  rw [operators]
  split
  · exact .fail _
  · exact .value lhs
  · exact .value lhs
  · rename_i op d taken
    split
    · exact .value lhs
    · rename_i tightness
      have shorter : (p.goTo d).left < p.left := next_shorter taken
      obtain ⟨positive,bounded⟩ := precedence_bounds op
      have tighter : own ≤ op.precedence := by omega
      let right := statement text source allowed opened (op.precedence + 1) (p.goTo d)
      have less : right.after.left < p.left := Nat.lt_of_le_of_lt right.within shorter
      have again : Stacked opened right.after.depth own := by
        rw [statement_depth]
        exact stacked
      have first := statement_bounded permits (op.precedence + 1) (p.goTo d) (stacked.mono tighter) (by omega) (by omega)
      exact .behind (.andThen first fun rhs _ =>
        operators_bounded permits least (op.apply lhs rhs) right.after again tight most)
  · exact .fail _
  · exact .fail _
termination_by p.rank 0
decreasing_by
  all_goals exact rank_shorter (by assumption) (by decide)

theorem operand_bounded (permits : ∀ m : Moment, m.Bounded → allowed m = true) {opened : List Activation}
    (p : Descent σ) (stacked : Stacked opened p.depth 6) : (operand text source allowed opened p).Bounded := by
  rw [operand]
  refine call_bounded stacked.operand (permits _ stacked.operand) ?_
  dsimp only
  split <;> rename_i taken
  · exact .behind (.fail _)
  · exact .behind (.fail _)
  · exact .behind (.value _)
  · exact .behind (identifier_bounded _)
  · exact .behind (nest_bounded fun room =>
      .andThen (statement_bounded permits 0 _ (stacked.deeper room rfl) (by decide) (by decide)) fun x _ =>
        closing_bounded x)
  · exact .behind (nest_bounded fun room =>
      .andThen (operand_bounded permits _ ((stacked.deeper room rfl).mono (by decide))) fun x _ => .value _)
  · exact .behind (nest_bounded fun room =>
      .andThen (operand_bounded permits _ ((stacked.deeper room rfl).mono (by decide))) fun x _ => .value _)
  · exact .behind (.fail _)
termination_by p.rank 1
decreasing_by
  all_goals exact rank_shorter (next_shorter (by assumption)) (by decide)

end

end Descent
end
end DeferredAttributes.Expression
