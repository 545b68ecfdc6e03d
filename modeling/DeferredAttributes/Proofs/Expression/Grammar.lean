import DeferredAttributes.Expression.Evaluate

-- The grammar of expressions, said without the machine that reads them. Level 1 binds least.
-- On level 6 stand numbers, identifiers, brackets and prefix operators.
namespace DeferredAttributes.Expression

def PrefixOperator.sign : PrefixOperator → Operator
  | .negate => .binary .subtract
  | .not => .not

def Expr.ofIdentifier (name : String) : Expr :=
  if name = "true" then .number 1 else if name = "false" then .number 0 else .name name

-- On some level tokens read as a tree. On the levels 1 to 5 operands of the next level are
-- joined from the left by the operators of that precedence. `depth` says how many brackets and
-- prefix operators stand inside each other at most: those of one operand do not count against
-- the other.
inductive Derives : (depth level : Nat) → List Token → Expr → Prop where
  | value (x : Float) : Derives 0 6 [.value x] (.number x)
  | identifier (name : String) : Derives 0 6 [.identifier name] (.ofIdentifier name)
  | bracketed {depth : Nat} {tokens : List Token} {e : Expr} (inside : Derives depth 1 tokens e) :
      Derives (depth + 1) 6 (.openBracket :: (tokens ++ [.closeBracket])) e
  | signed {depth : Nat} {tokens : List Token} {e : Expr} (op : PrefixOperator)
      (operand : Derives depth 6 tokens e) : Derives (depth + 1) 6 (.operator op.sign :: tokens) (.unary op e)
  | single {depth level : Nat} {tokens : List Token} {e : Expr} (low : 1 ≤ level) (high : level ≤ 5)
      (operand : Derives depth (level + 1) tokens e) : Derives depth level tokens e
  | joined {one two : Nat} {left right : List Token} {l r : Expr} (op : BinaryOperator)
      (first : Derives one op.precedence left l) (second : Derives two (op.precedence + 1) right r) :
      Derives (max one two) op.precedence (left ++ .operator (.binary op) :: right) (.binary op l r)

theorem Derives.lower {depth level lower : Nat} {tokens : List Token} {e : Expr}
    (derived : Derives depth level tokens e) (low : 1 ≤ lower) (below : lower ≤ level) (high : level ≤ 6) :
    Derives depth lower tokens e := by
  obtain ⟨gap,rfl⟩ := Nat.exists_eq_add_of_le below
  clear below
  induction gap generalizing lower with
  | zero => exact derived
  | succ gap ih =>
    have next : lower + (gap + 1) = lower + 1 + gap := by omega
    rw [next] at derived high
    exact .single low (by omega) (ih (by omega) derived high)

def Token.asked? : Token → Option String
  | .identifier name => if name = "true" ∨ name = "false" then none else some name
  | _ => none

def asked (tokens : List Token) : List String := tokens.filterMap Token.asked?

theorem mem_asked {tokens : List Token} {name : String} :
    name ∈ asked tokens ↔ .identifier name ∈ tokens ∧ name ≠ "true" ∧ name ≠ "false" := by
  unfold asked
  rw [List.mem_filterMap]
  constructor
  · rintro ⟨token,member,found⟩
    cases token with
    | identifier other =>
      simp only [Token.asked?,Option.ite_none_left_eq_some,not_or,Option.some.injEq] at found
      obtain ⟨plain,rfl⟩ := found
      exact ⟨member,plain⟩
    | value | operator | openBracket | closeBracket => cases found
  · rintro ⟨member,plain⟩
    exact ⟨.identifier name,member,by simp [Token.asked?,plain]⟩

theorem asked_joined (left right : List Token) (op : Operator) :
    asked (left ++ .operator op :: right) = asked left ++ asked right :=
  List.filterMap_append

theorem asked_bracketed (tokens : List Token) :
    asked (.openBracket :: (tokens ++ [.closeBracket])) = asked tokens := by
  have split : asked (tokens ++ [.closeBracket]) = asked tokens ++ [] := List.filterMap_append
  rw [List.append_nil] at split
  exact split

def Expr.names : Expr → List String
  | .number _ => []
  | .name identifier => [identifier]
  | .unary _ operand => operand.names
  | .binary _ left right => left.names ++ right.names

theorem Derives.names {depth level : Nat} {tokens : List Token} {e : Expr}
    (derived : Derives depth level tokens e) : e.names = asked tokens := by
  induction derived with
  | value x => rfl
  | identifier name =>
    unfold Expr.ofIdentifier asked
    by_cases isTrue : name = "true"
    · simp [isTrue,Token.asked?,Expr.names]
    · by_cases isFalse : name = "false"
      · simp [isFalse,Token.asked?,Expr.names]
      · simp [isTrue,isFalse,Token.asked?,Expr.names]
  | bracketed inside ih => rw [asked_bracketed,ih]
  | signed op operand ih => exact ih
  | single low high operand ih => exact ih
  | joined op first second ihLeft ihRight => rw [Expr.names,asked_joined,ihLeft,ihRight]

end DeferredAttributes.Expression
