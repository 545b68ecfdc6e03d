import DeferredAttributes.Proofs.Expression.Descending

-- Reading a text by functions that call each other gives what evaluating it gives, and the calls
-- need no more room than there is.
namespace DeferredAttributes.Expression

section
variable {σ : Type} {text : String} {source : Source σ} {begun : σ} {parsed : Parsed} {r : Descent σ}

theorem ending_follows {x : Float} (read : Gained source begun parsed [] begun x r) (ended : Ended 0 r.cursor) :
    Follows text source begun parsed (Descent.ending text x r) fun x q =>
      ∃ e, parsed.outcome = .ok e ∧ e.eval source begun = (.ok x,q.state) := by
  obtain ⟨e,p,here,opened,abreast,evaluated⟩ := read
  replace here : p.operand = some e := here
  replace opened : p.frames = [] := opened
  have whole : applyBinary 0 e p.frames = (e,[]) := by
    rw [opened]
    rfl
  unfold Ended at ended
  unfold Descent.ending
  split
  · rename_i taken
    rw [taken] at ended
    cases ended
  · rename_i d taken
    refine ⟨e,?_,evaluated⟩
    rw [← abreast.reads,Parsing.readFrom_end taken]
    simp only [Parsing.finish,here,whole]
  · rename_i found d taken
    rw [taken] at ended
    refine abreast.fault (Parsing.readFrom_fault taken ?_)
    cases found with
    | value | identifier | openBracket => cases ended
    | closeBracket => simp only [Parsing.step,here,Parsing.operatorStep,whole]
    | operator op =>
      cases op with
      | not => cases ended
      | binary op => cases ended

end

theorem Foretold.evaluate {σ : Type} {text : String} {source : Source σ} {s after : σ} {error : ExpressionError}
    (foretold : Foretold text source s (parse text) after (.failed error)) :
    evaluate source text s = (.error error,after) := by
  cases foretold with
  | malformed stopped answered => simp only [Expression.evaluate,stopped,askAll_answers,answered]
  | lookup failed =>
    cases parsed : (parse text).outcome with
    | ok e =>
      obtain ⟨whole,nesting,room,derived⟩ := parse_derives parsed
      rw [derived.parse room whole] at failed
      simp only [evaluate_answers parsed,failed]
    | error fault =>
      have stopped : parse text = ⟨(parse text).names,.error fault⟩ := by rw [← parsed]
      unfold Expression.evaluate
      rw [stopped]
      simp only [askAll_answers,failed]

namespace Descent

section
variable {σ : Type} {text : String} {source : Source σ} {allowed : Moment → Bool} {s : σ}

theorem whole_bounded (permits : ∀ m : Moment, m.Bounded → allowed m = true) : (whole text source allowed s).Bounded := by
  have empty : Stacked [] 0 0 := ⟨rfl,rfl,Nat.zero_le _,Nat.le_refl _⟩
  refine .andThen (statement_bounded permits 0 _ empty (by decide) (by decide)) fun x _ => ?_
  unfold ending
  split
  · exact .behind (.fail _)
  · exact .behind (.value _)
  · exact .behind (.fail _)

theorem whole_follows : Follows text source s (parse text) (whole text source allowed s) fun x q =>
    ∃ e, (parse text).outcome = .ok e ∧ e.eval source s = (.ok x,q.state) := by
  have abreast : Abreast source s (parse text) .start (start text s) := ⟨rfl,rfl,[],rfl⟩
  have bottom : Below 0 [] := trivial
  exact .andThen (statement_follows [] 0 _ rfl rfl bottom rfl abreast) fun x read => ending_follows read.1 read.2

theorem whole_evaluates (accepted : ∀ m, (whole text source allowed s).outcome ≠ .error (.refused m)) :
    (whole text source allowed s).outcome = (evaluate source text s).1.mapError .failed ∧
      (whole text source allowed s).after.state = (evaluate source text s).2 := by
  have follows : Follows text source s (parse text) (whole text source allowed s) _ := whole_follows
  unfold Follows at follows
  cases ended : (whole text source allowed s).outcome with
  | ok x =>
    rw [ended] at follows
    obtain ⟨e,parsed,evaluated⟩ := follows
    have read : parse text = ⟨(parse text).names,.ok e⟩ := by rw [← parsed]
    have evaluation : evaluate source text s = (.ok x,(whole text source allowed s).after.state) := by
      unfold evaluate
      rw [read]
      simp only [evaluated]
    rw [evaluation]
    exact ⟨rfl,rfl⟩
  | error halt =>
    rw [ended] at follows
    cases halt with
    | failed error =>
      rw [Foretold.evaluate follows]
      exact ⟨rfl,rfl⟩
    | refused call => exact absurd ended (accepted call)

end

end Descent

def placeholder : Source Unit := fun _ s => (.ok 1,s)

theorem evaluate_placeholder (text : String) : (evaluate placeholder text ()).1.map (fun _ => ()) = check text := by
  have steady : ∀ name s, (placeholder name s).1 = .ok 1 := fun _ _ => rfl
  have never : ∀ {names : List String} {error : LookupError}, ¬FirstMissing (fun _ => .ok 1) names error := by
    intro names error missing
    exact missing.missing fun _ _ => ⟨1,rfl⟩
  cases parsed : (parse text).outcome with
  | ok e =>
    rw [check_parse.mpr ⟨e,parsed⟩]
    rcases evaluate_accepted steady parsed () with ⟨_,x,done⟩ | ⟨error,missing,_⟩
    · rw [done]
      rfl
    · exact absurd missing never
  | error fault =>
    have rejected : check text = .error (.malformed text fault) := by simp only [check,parsed]
    rw [rejected]
    rcases evaluate_malformed steady parsed () with ⟨_,stopped⟩ | ⟨error,missing,_⟩
    · rw [stopped]
      rfl
    · exact absurd missing never

namespace Moment

def unlimited : Moment → Bool := fun _ => true

def within (statements operands : Nat) (m : Moment) : Bool :=
  decide (m.statements ≤ statements) && decide (m.operands ≤ operands)

theorem Bounded.permitted {m : Moment} (bounded : m.Bounded) {allowed : Moment → Bool}
    (either : allowed ∈ [unlimited,within 390 65]) : allowed m = true := by
  simp only [List.mem_cons,List.not_mem_nil,or_false] at either
  rcases either with rfl | rfl
  · rfl
  · exact Bool.and_eq_true_iff.mpr ⟨decide_eq_true bounded.statements,decide_eq_true bounded.operands⟩

end Moment

-- A stack with room for just 390 statements and 65 operands makes no difference to what comes
-- out, and the counter is the number of open brackets and waiting prefix operators.
theorem descent_bounded {σ : Type} (text : String) (source : Source σ) (s : σ) :
    (∀ allowed ∈ [Moment.unlimited,Moment.within 390 65],
      let run := Descent.whole text source allowed s
      let checked := Descent.whole text placeholder allowed ()
      run.outcome = (evaluate source text s).1.mapError .failed ∧
      run.after.state = (evaluate source text s).2 ∧
      checked.outcome.map (fun _ => ()) = (check text).mapError .failed ∧
      ∀ m ∈ run.after.calls ++ checked.after.calls, m.statements ≤ 390 ∧ m.operands ≤ 65 ∧ m.depth = m.nested) ∧
    ∀ (allowed : Moment → Bool) (opened : List Activation) (least : Nat) (p : Descent σ),
      (Descent.statement text source allowed opened least p).after.depth = p.depth ∧
      (Descent.operand text source allowed opened p).after.depth = p.depth := by
  refine ⟨fun allowed either => ?_,fun allowed opened least p =>
    ⟨Descent.statement_depth opened least p,Descent.operand_depth opened p⟩⟩
  intro run checked
  have permits : ∀ m : Moment, m.Bounded → allowed m = true := fun m bounded => bounded.permitted either
  have bounded : run.Bounded := Descent.whole_bounded permits
  have within : checked.Bounded := Descent.whole_bounded permits
  obtain ⟨outcome,state⟩ := Descent.whole_evaluates bounded.accepted
  obtain ⟨value,_⟩ := Descent.whole_evaluates within.accepted
  refine ⟨outcome,state,?_,fun m member => ?_⟩
  · rw [← evaluate_placeholder,value]
    cases (evaluate placeholder text ()).1 <;> rfl
  · have small : m.Bounded := by
      rcases List.mem_append.mp member with own | other
      · exact (bounded.calls m own).resolve_left List.not_mem_nil
      · exact (within.calls m other).resolve_left List.not_mem_nil
    exact ⟨small.statements,small.operands,small.depth⟩

theorem descent_bounded_ascending :
    let run := Descent.whole "1 || 1 && 1 < 1 + 1 * (1 || 1 && 1 < 1 + 1 * level)" placeholder (Moment.within 390 65) ()
    ∃ m ∈ run.after.calls, m.statements = 12 ∧ m.operands = 2 ∧ m.depth = 1 ∧
      m.statements ≤ 390 ∧ m.operands ≤ 65 ∧ m.depth = m.nested := by
  intro run
  have deepest : ∃ m ∈ run.after.calls, m.statements = 12 ∧ m.operands = 2 ∧ m.depth = 1 := by decide +kernel
  obtain ⟨m,member,statements,operands,depth⟩ := deepest
  obtain ⟨_,_,_,bounded⟩ := (descent_bounded _ placeholder ()).1 (Moment.within 390 65) (by simp)
  exact ⟨m,member,statements,operands,depth,bounded m (List.mem_append_left _ member)⟩

end DeferredAttributes.Expression
