import DeferredAttributes.Proofs.Decimal.Special
import DeferredAttributes.Proofs.Expression.Asking
import DeferredAttributes.Proofs.Expression.Compound

-- Two texts in brackets with an operator between them. For `==` and `!=` that is one question and
-- its negation, unless the difference of the values is NaN.
namespace DeferredAttributes.Expression
open Decimal

def HasRoom (text : String) : Prop := ∃ nesting < maxDepth, ∃ e, Derives nesting 1 (tokens text) e

def compared (op : BinaryOperator) (left right : String) : String :=
  "(" ++ left ++ ") " ++ op.symbol ++ " (" ++ right ++ ")"

example : compared .notEqual "a" "b + 1" = "(a) != (b + 1)" := rfl

theorem compared_tokens {left right : String} (one : Tokenizes left) (two : Tokenizes right) (op : BinaryOperator) :
    Tokenizes (compared op left right) ∧ tokens (compared op left right) =
      (.openBracket :: (tokens left ++ [.closeBracket])) ++ .operator (.binary op) ::
        (.openBracket :: (tokens right ++ [.closeBracket])) := by
  have second := (reads_tokens.mpr ⟨two,rfl⟩).bracketed .none
  have behind := (Reads.operator op).append second.space (Cursor.space_ends _)
  have whole := (reads_tokens.mpr ⟨one,rfl⟩).bracketed behind.space
  refine reads_tokens.mp ?_
  convert whole using 1
  · simp [compared]
  · simp

section
variable {σ : Type} {source : Source σ} {answer : String → Except LookupError Float} {left right : String} {s : σ}
  {a b : Float}

theorem evaluate_eval {e : Expr} (parsed : (parse left).outcome = .ok e) :
    (evaluate source left s).1 = .ok a ↔ (e.eval source s).1 = .ok a := by
  obtain ⟨_,nesting,_,derived⟩ := parse_derives parsed
  rw [evaluate_answers parsed,e.eval_answers,derived.names]
  rcases answers source (asked (tokens left)) s with ⟨error | numbers,after⟩
  · exact ⟨fun impossible => (by cases impossible),fun impossible => (by cases impossible)⟩
  · simp only [Except.ok.injEq]

theorem Expr.eval_binary {op : BinaryOperator} {l r : Expr} {middle : σ} (first : l.eval source s = (.ok a,middle))
    (second : (r.eval source middle).1 = .ok b) : ((Expr.binary op l r).eval source s).1 = .ok (op.apply a b) := by
  rcases valued : r.eval source middle with ⟨error | y,after⟩ <;> rw [valued] at second <;> cases second
  simp only [eval,first,valued]

variable (steady : ∀ name s, (source name s).1 = answer name)
include steady

theorem answers_mapM (names : List String) (s : σ) : (answers source names s).1 = names.mapM answer := by
  induction names generalizing s with
  | nil => rfl
  | cons name rest ih =>
    rw [answers,List.mapM_cons,← steady name s]
    rcases source name s with ⟨error | x,next⟩
    · rfl
    · dsimp only
      rw [← ih next]
      rcases answers source rest next with ⟨error | numbers,after⟩ <;> rfl

theorem Expr.eval_steady (e : Expr) (s s' : σ) : (e.eval source s).1 = (e.eval source s').1 := by
  have valued : ∀ s, (e.eval source s).1 = (e.names.mapM answer).map e.value := by
    intro s
    rw [e.eval_answers,← answers_mapM steady e.names s]
    rcases answers source e.names s with ⟨error | numbers,after⟩ <;> rfl
  rw [valued s,valued s']

theorem evaluate_compared (one : HasRoom left) (two : HasRoom right)
    (first : (evaluate source left s).1 = .ok a) (second : (evaluate source right s).1 = .ok b) (op : BinaryOperator) :
    (evaluate source (compared op left right) s).1 = .ok (op.apply a b) := by
  obtain ⟨⟨l,parsed⟩,_⟩ := evaluate_ok steady first
  obtain ⟨⟨r,parsed'⟩,_⟩ := evaluate_ok steady second
  rw [evaluate_eval parsed] at first
  rw [evaluate_eval parsed'] at second
  obtain ⟨nesting,room,tree,derived⟩ := one
  obtain ⟨nesting',room',tree',derived'⟩ := two
  cases derived.only parsed
  cases derived'.only parsed'
  obtain ⟨whole,same⟩ := compared_tokens (parse_derives parsed).1 (parse_derives parsed').1 op
  obtain ⟨positive,bounded⟩ := precedence_bounds op
  have joined := Derives.joined op (derived.bracketed.lower positive (by omega) (by decide))
    (derived'.bracketed.lower (Nat.le_add_left 1 _) (by omega) (by decide))
  have joined := joined.lower (Nat.le_refl 1) positive (by omega)
  rw [← same] at joined
  rw [evaluate_eval (by rw [joined.parse (by omega) whole])]
  rcases valued : l.eval source s with ⟨error | x,middle⟩ <;> rw [valued] at first <;> cases first
  exact Expr.eval_binary valued ((r.eval_steady steady middle s).trans second)

end

section
variable {a b : Float}

theorem tolerance_number : tolerance.isNaN = false := by decide +kernel

theorem apply_equal_notEqual (left : a.isNaN = false) (right : b.isNaN = false) :
    if a.isInf && a == b then BinaryOperator.equal.apply a b = 0 ∧ BinaryOperator.notEqual.apply a b = 0
    else BinaryOperator.equal.apply a b = 1 ∧ BinaryOperator.notEqual.apply a b = 0 ∨
      BinaryOperator.equal.apply a b = 0 ∧ BinaryOperator.notEqual.apply a b = 1 := by
  have number := isNaN_sub left right
  rw [← isNaN_abs] at number
  unfold BinaryOperator.apply
  dsimp only
  split <;> rename_i infinite
  · obtain ⟨below,above⟩ := isNaN_unordered (b := tolerance) (number.trans infinite)
    rw [decide_eq_false below,decide_eq_false above]
    exact ⟨rfl,rfl⟩
  · have complement := le_iff_not_lt (number.trans (Bool.eq_false_iff.mpr infinite)) tolerance_number
    by_cases below : (a - b).abs < tolerance
    · rw [decide_eq_true below,decide_eq_false (fun above => complement.mp above below)]
      exact .inl ⟨rfl,rfl⟩
    · rw [decide_eq_false below,decide_eq_true (complement.mpr below)]
      exact .inr ⟨rfl,rfl⟩

theorem apply_equal_self (number : a.isNaN = false) : BinaryOperator.equal.apply a a = truth !a.isInf := by
  cases infinite : a.isInf with
  | true =>
    have same := apply_equal_notEqual number number
    rw [if_pos (by rw [infinite,beq_self number]; rfl)] at same
    exact same.1
  | false =>
    unfold BinaryOperator.apply
    dsimp only
    rw [sub_self_finite number infinite]
    decide +kernel

end

theorem division_room : HasRoom "1 / 0" := by
  have reads : Reads "1 / 0".toList
      [.value (literalValue ['1']),.operator (.binary .divide),.value (literalValue ['0'])] := by
    have zero : Reads (['0'] ++ []) [.value (literalValue ['0'])] := Reads.none.token ['0'] fun _ => ⟨_,rfl,rfl⟩
    have behind := (Reads.operator .divide).append zero.space (Cursor.space_ends _)
    exact behind.space.token ['1'] fun _ => ⟨_,rfl,rfl⟩
  have derived := (Derives.joined .divide (.single (by decide) (by decide) (.value (literalValue ['1'])))
    (.value (literalValue ['0']))).lower (Nat.le_refl 1) (by decide) (by decide)
  rw [List.singleton_append,← (reads_tokens.mp reads).2] at derived
  exact ⟨0,by decide,_,derived⟩

theorem toOption_ok {ε : Type} {outcome : Except ε Float} {x : Float} (found : outcome.toOption = some x) :
    outcome = .ok x := by
  cases outcome <;> cases found
  rfl

def twos : Source Nat := fun _ count => (.ok 2,count + 1)

def nameless : Source Unit := fun name s => (.error (.unknown name),s)

-- Of `==` and `!=` one is 1 and the other 0, except for two equal infinities, which have no
-- difference.
theorem equal_notEqual_complementary {σ : Type} {source : Source σ} {answer : String → Except LookupError Float}
    (steady : ∀ name s, (source name s).1 = answer name) {left right : String} {s : σ} {a b : Float}
    (one : HasRoom left) (two : HasRoom right) (first : (evaluate source left s).1 = .ok a)
    (second : (evaluate source right s).1 = .ok b) (number : a.isNaN = false) (other : b.isNaN = false) :
    ∃ x y z, (evaluate source (compared .equal left right) s).1 = .ok x ∧
      (evaluate source (compared .notEqual left right) s).1 = .ok y ∧
      (evaluate source (compared .equal left left) s).1 = .ok z ∧
      ((x = 1 ∧ y = 0 ∨ x = 0 ∧ y = 1) ↔ ¬(a.isInf = true ∧ (a == b) = true)) ∧
      (a.isInf = true → (a == b) = true → x = 0 ∧ y = 0) ∧
      (z = 1 ↔ a.isInf = false) ∧ (z = 0 ↔ a.isInf = true) := by
  refine ⟨_,_,_,evaluate_compared steady one two first second .equal,evaluate_compared steady one two first second .notEqual,
    evaluate_compared steady one one first first .equal,?_⟩
  have apart : (0 : Float) ≠ 1 := by decide +kernel
  have cases := apply_equal_notEqual number other
  rw [apply_equal_self number]
  refine ⟨?_,?_,?_⟩
  · split at cases <;> rename_i infinite <;> rw [Bool.and_eq_true] at infinite
    · rw [cases.1,cases.2]
      simp [infinite,apart]
    · exact ⟨fun _ => infinite,fun _ => cases⟩
  · intro infinite same
    rw [infinite,same] at cases
    exact cases
  · cases a.isInf
    · exact ⟨⟨fun _ => rfl,fun _ => rfl⟩,fun zero => absurd zero apart.symm,fun impossible => (by cases impossible)⟩
    · exact ⟨⟨fun one => absurd one apart,fun impossible => (by cases impossible)⟩,fun _ => rfl,fun _ => rfl⟩

theorem equal_notEqual_complementary_limit :
    (∃ x y, (evaluate twos "(limit) == (1 / 0)" 0).1 = .ok x ∧ (evaluate twos "(limit) != (1 / 0)" 0).1 = .ok y ∧
      (x = 1 ∧ y = 0 ∨ x = 0 ∧ y = 1)) ∧
    (evaluate twos "(limit) == (limit)" 0).1 = .ok 1 := by
  have room : HasRoom "limit" := by
    have reads : Reads "limit".toList [.identifier "limit"] := Reads.none.token "limit".toList fun _ => ⟨_,rfl,rfl⟩
    have derived := (Derives.identifier "limit").lower (Nat.le_refl 1) (by decide) (by decide)
    rw [← (reads_tokens.mp reads).2] at derived
    exact ⟨0,by decide,_,derived⟩
  have first : (evaluate twos "limit" 0).1 = .ok 2 := toOption_ok (by decide +kernel)
  have second : (evaluate twos "1 / 0" 0).1 = .ok (1 / 0) := toOption_ok (by decide +kernel)
  have steady : ∀ name count, (twos name count).1 = (fun _ => .ok 2 : String → Except LookupError Float) name :=
    fun _ _ => rfl
  obtain ⟨x,y,z,equal,unequal,self,complement,_,same,_⟩ :=
    equal_notEqual_complementary steady room division_room first second (by decide +kernel) (by decide +kernel)
  refine ⟨⟨x,y,equal,unequal,complement.mpr (by decide +kernel)⟩,?_⟩
  rw [← same.mpr (by decide +kernel)]
  exact self

-- Infinity is neither equal to itself nor unequal.
theorem infinity_incomparable :
    HasRoom "1 / 0" ∧ (evaluate nameless "1 / 0" ()).1 = .ok (1 / 0) ∧ (1 / 0 : Float).isNaN = false ∧
    (evaluate nameless "(1 / 0) == (1 / 0)" ()).1 = .ok 0 ∧ (evaluate nameless "(1 / 0) != (1 / 0)" ()).1 = .ok 0 :=
  ⟨division_room,toOption_ok (by decide +kernel),by decide +kernel,toOption_ok (by decide +kernel),
    toOption_ok (by decide +kernel)⟩

end DeferredAttributes.Expression
