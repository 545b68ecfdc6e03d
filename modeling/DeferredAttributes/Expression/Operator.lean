-- Operators on numbers. False is 0 and true is 1.
namespace DeferredAttributes.Expression

inductive BinaryOperator where
  | or
  | and
  | less
  | greater
  | lessEqual
  | greaterEqual
  | equal
  | notEqual
  | add
  | subtract
  | multiply
  | divide
deriving Repr, DecidableEq

inductive Operator where
  | binary (operator : BinaryOperator)
  | not
deriving Repr, DecidableEq

def BinaryOperator.precedence : BinaryOperator → Nat
  | .or => 1
  | .and => 2
  | .less | .greater | .lessEqual | .greaterEqual | .equal | .notEqual => 3
  | .add | .subtract => 4
  | .multiply | .divide => 5

def Operator.precedence : Operator → Option Nat
  | .binary operator => some operator.precedence
  | .not => none

def BinaryOperator.symbol : BinaryOperator → String
  | .or => "||"
  | .and => "&&"
  | .less => "<"
  | .greater => ">"
  | .lessEqual => "<="
  | .greaterEqual => ">="
  | .equal => "=="
  | .notEqual => "!="
  | .add => "+"
  | .subtract => "-"
  | .multiply => "*"
  | .divide => "/"

def Operator.symbol : Operator → String
  | .binary operator => operator.symbol
  | .not => "!"

def truth (b : Bool) : Float := if b then 1 else 0

def tolerance : Float := 0.0001

-- Both operands are numbers already: nothing is left out because of the other side.
def BinaryOperator.apply : BinaryOperator → Float → Float → Float
  | .or, a, b => truth (a != 0 || b != 0)
  | .and, a, b => truth (a != 0 && b != 0)
  | .less, a, b => truth (a < b)
  | .greater, a, b => truth (b < a)
  | .lessEqual, a, b => truth (a ≤ b)
  | .greaterEqual, a, b => truth (b ≤ a)
  | .equal, a, b => truth ((a - b).abs < tolerance)
  | .notEqual, a, b => truth (tolerance ≤ (a - b).abs)
  | .add, a, b => a + b
  | .subtract, a, b => a - b
  | .multiply, a, b => a * b
  | .divide, a, b => a / b

theorem precedence_bounds (operator : BinaryOperator) : 1 ≤ operator.precedence ∧ operator.precedence ≤ 5 := by
  cases operator <;> decide

end DeferredAttributes.Expression
