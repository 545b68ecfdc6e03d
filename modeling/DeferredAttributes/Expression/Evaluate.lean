import DeferredAttributes.Expression.Parse
import DeferredAttributes.Tree.Basic

-- Values of expressions, and the text of what is wrong with them.
namespace DeferredAttributes.Expression

-- A source of identifier values. It may change with every question.
abbrev Source (σ : Type) := String → σ → Except LookupError Float × σ

def PrefixOperator.apply : PrefixOperator → Float → Float
  | .negate, x => -x
  | .not, x => truth (x == 0)

def Expr.eval {σ : Type} (source : Source σ) : Expr → σ → Except LookupError Float × σ
  | .number x, s => (.ok x,s)
  | .name identifier, s => source identifier s
  | .unary op operand, s =>
    match operand.eval source s with
    | (.ok x,s) => (.ok (op.apply x),s)
    | (.error error,s) => (.error error,s)
  | .binary op left right, s =>
    match left.eval source s with
    | (.error error,s) => (.error error,s)
    | (.ok a,s) =>
      match right.eval source s with
      | (.error error,s) => (.error error,s)
      | (.ok b,s) => (.ok (op.apply a b),s)

def askAll {σ : Type} (source : Source σ) : List String → σ → Except LookupError Unit × σ
  | [], s => (.ok (),s)
  | name :: names, s =>
    match source name s with
    | (.ok _,s) => askAll source names s
    | (.error error,s) => (.error error,s)

inductive ExpressionError where
  | malformed (expression : String) (fault : Fault)
  | lookup (expression : String) (error : LookupError)

def charactersBefore? : Nat → List Char → Option (List Char)
  | 0, _ => some []
  | _ + 1, [] => none
  | rest + 1, c :: cs =>
    if c.utf8Size ≤ rest + 1 then (charactersBefore? (rest + 1 - c.utf8Size) cs).map (c :: ·) else none

def column (offset : Nat) (text : List Char) : Nat :=
  match charactersBefore? offset text with
  | some cs => cs.length
  | none => offset

def Fault.message (expression : String) (fault : Fault) : String :=
  fault.reason.message ++ "\n  " ++ expression ++ "\n  " ++
    String.ofList (List.replicate (column fault.offset expression.toList) ' ') ++ "*"

def ExpressionError.message : ExpressionError → String
  | .malformed expression fault => fault.message expression
  | .lookup expression error => "in '" ++ expression ++ "': " ++ error.message

def check (text : String) : Except ExpressionError Unit :=
  match (parse text).outcome with
  | .ok _ => .ok ()
  | .error fault => .error (.malformed text fault)

-- The value of a text. Where it is malformed, the identifiers met before that place are
-- asked for all the same, and one without a value is what gets reported.
def evaluate {σ : Type} (source : Source σ) (text : String) (s : σ) : Except ExpressionError Float × σ :=
  match parse text with
  | ⟨_,.ok e⟩ =>
    match e.eval source s with
    | (.ok x,s) => (.ok x,s)
    | (.error error,s) => (.error (.lookup text error),s)
  | ⟨names,.error fault⟩ =>
    match askAll source names s with
    | (.ok (),s) => (.error (.malformed text fault),s)
    | (.error error,s) => (.error (.lookup text error),s)

end DeferredAttributes.Expression
