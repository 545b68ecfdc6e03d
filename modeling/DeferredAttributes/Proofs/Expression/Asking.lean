import DeferredAttributes.Proofs.Expression.Accepted

-- What an evaluation asks for, and what it makes of the answers. The tree that the grammar
-- gives to a text decides the value; the identifiers alone decide the questions.
namespace DeferredAttributes.Expression

-- Asks for names one at a time, from left to right. The first that has no number ends it, and
-- nothing is asked for after it.
def answers {σ : Type} (source : Source σ) : List String → σ → Except LookupError (List Float) × σ
  | [], s => (.ok [],s)
  | name :: rest, s =>
    match source name s with
    | (.error error,s) => (.error error,s)
    | (.ok x,s) =>
      match answers source rest s with
      | (.error error,s) => (.error error,s)
      | (.ok numbers,s) => (.ok (x :: numbers),s)

def Expr.value : Expr → List Float → Float
  | .number x, _ => x
  | .name _, numbers => numbers.headD 0
  | .unary op operand, numbers => op.apply (operand.value numbers)
  | .binary op left right, numbers =>
    op.apply (left.value (numbers.take left.names.length)) (right.value (numbers.drop left.names.length))

section
variable {σ : Type} {source : Source σ} {one two names : List String} {name : String} {s middle : σ}
  {numbers : List Float} {error : LookupError}

theorem answers_cons_ok : answers source (name :: names) s = (.ok numbers,middle) ↔
    ∃ x next more, source name s = (.ok x,next) ∧ answers source names next = (.ok more,middle) ∧
      numbers = x :: more := by
  rw [answers]
  constructor
  · intro found
    rcases asked : source name s with ⟨failed | x,next⟩
    · rw [asked] at found
      cases found
    · rw [asked] at found
      rcases later : answers source names next with ⟨failed | more,last⟩
      · simp only [later] at found
        cases found
      · simp only [later] at found
        cases found
        exact ⟨x,next,more,rfl,later,rfl⟩
  · rintro ⟨x,next,more,asked,later,rfl⟩
    simp only [asked,later]

theorem answers_cons_error : answers source (name :: names) s = (.error error,middle) ↔
    source name s = (.error error,middle) ∨
      ∃ x next, source name s = (.ok x,next) ∧ answers source names next = (.error error,middle) := by
  rw [answers]
  constructor
  · intro stopped
    rcases asked : source name s with ⟨failed | x,next⟩
    · rw [asked] at stopped
      cases stopped
      exact .inl rfl
    · rw [asked] at stopped
      rcases later : answers source names next with ⟨failed | more,last⟩
      · simp only [later] at stopped
        exact .inr ⟨x,next,rfl,later.trans stopped⟩
      · simp only [later] at stopped
        cases stopped
  · rintro (asked | ⟨x,next,asked,later⟩)
    · simp only [asked]
    · simp only [asked,later]

theorem answers_append_error (first : answers source one s = (.error error,middle)) :
    answers source (one ++ two) s = (.error error,middle) := by
  induction one generalizing s with
  | nil => cases first
  | cons name rest ih =>
    apply answers_cons_error.mpr
    rcases answers_cons_error.mp first with failed | ⟨x,next,asked,failed⟩
    · exact .inl failed
    · exact .inr ⟨x,next,asked,ih failed⟩

theorem answers_append (first : answers source one s = (.ok numbers,middle)) :
    answers source (one ++ two) s = match answers source two middle with
      | (.error error,s) => (.error error,s)
      | (.ok more,s) => (.ok (numbers ++ more),s) := by
  induction one generalizing s numbers with
  | nil =>
    cases first
    rw [List.nil_append]
    rcases answers source two middle with ⟨failed | more,after⟩ <;> rfl
  | cons name rest ih =>
    obtain ⟨x,next,more,asked,later,rfl⟩ := answers_cons_ok.mp first
    rw [List.cons_append,answers,asked]
    simp only [ih later]
    rcases answers source two middle with ⟨failed | more,last⟩ <;> rfl

theorem answers_length (found : answers source names s = (.ok numbers,middle)) : numbers.length = names.length := by
  induction names generalizing s numbers with
  | nil => cases found; rfl
  | cons name rest ih =>
    obtain ⟨x,next,more,_,later,rfl⟩ := answers_cons_ok.mp found
    exact congrArg Nat.succ (ih later)

theorem Expr.eval_answers (e : Expr) (s : σ) :
    e.eval source s = match answers source e.names s with
      | (.error error,s) => (.error error,s)
      | (.ok numbers,s) => (.ok (e.value numbers),s) := by
  induction e generalizing s with
  | number x => rfl
  | name identifier =>
    simp only [eval,names,answers]
    rcases source identifier s with ⟨failed | x,next⟩ <;> rfl
  | unary op operand ih =>
    simp only [eval,names,ih]
    rcases answers source operand.names s with ⟨failed | numbers,after⟩ <;> rfl
  | binary op left right ihLeft ihRight =>
    simp only [eval,names,ihLeft,ihRight]
    rcases first : answers source left.names s with ⟨failed | numbers,middle⟩
    · simp only [answers_append_error first]
    · have split := answers_length first
      simp only [answers_append first]
      rcases answers source right.names middle with ⟨failed | more,after⟩
      · rfl
      · simp only [value,← split,List.take_left,List.drop_left]

end

theorem evaluate_answers {text : String} {e : Expr} (parsed : (parse text).outcome = .ok e) {σ : Type}
    (source : Source σ) (s : σ) :
    evaluate source text s = match answers source (asked (tokens text)) s with
      | (.error error,s) => (.error (.lookup text error),s)
      | (.ok numbers,s) => (.ok (e.value numbers),s) := by
  obtain ⟨whole,nesting,room,derived⟩ := parse_derives parsed
  unfold evaluate
  rw [derived.parse room whole]
  simp only [Expr.eval_answers,derived.names]
  rcases answers source (asked (tokens text)) s with ⟨failed | numbers,after⟩ <;> rfl

-- Both sides of `||` and `&&` are asked for, and the keywords are not. The first identifier
-- without a number decides.
theorem evaluate_tree {text : String} (accepted : check text = .ok ()) :
    ∃ e, (∀ tree, (∃ nesting, Derives nesting 1 (tokens text) tree) ↔ tree = e) ∧
      e.names = asked (tokens text) ∧
      ∀ {σ : Type} (source : Source σ) (s : σ),
        evaluate source text s = match answers source (asked (tokens text)) s with
          | (.error error,s) => (.error (.lookup text error),s)
          | (.ok numbers,s) => (.ok (e.value numbers),s) := by
  obtain ⟨e,parsed⟩ := check_parse.mp accepted
  obtain ⟨_,nesting,_,derived⟩ := parse_derives parsed
  refine ⟨e,?_,derived.names,evaluate_answers parsed⟩
  intro tree
  constructor
  · rintro ⟨other,also⟩
    exact also.only parsed
  · rintro rfl
    exact ⟨nesting,derived⟩

theorem check_isOk {text : String} (fine : (check text).isOk = true) : check text = .ok () := by
  cases checked : check text with
  | error error => rw [checked] at fine; cases fine
  | ok => rfl

theorem evaluate_tree_launch :
    check "10 - fuel - 2 * -3 < $limit || !ready && true" = .ok () ∧
    asked (tokens "10 - fuel - 2 * -3 < $limit || !ready && true") = ["fuel","$limit","ready"] ∧
    ∃ e : Expr, e.names = ["fuel","$limit","ready"] ∧
      evaluate (fun name log => (.ok 20,log ++ [name])) "10 - fuel - 2 * -3 < $limit || !ready && true" [] =
        (.ok (e.value [20,20,20]),["fuel","$limit","ready"]) := by
  have accepted : check "10 - fuel - 2 * -3 < $limit || !ready && true" = .ok () := check_isOk (by decide +kernel)
  have names : asked (tokens "10 - fuel - 2 * -3 < $limit || !ready && true") = ["fuel","$limit","ready"] := by
    decide +kernel
  obtain ⟨e,_,own,evaluates⟩ := evaluate_tree accepted
  refine ⟨accepted,names,e,own.trans names,?_⟩
  rw [evaluates,names]
  rfl

end DeferredAttributes.Expression
