import DeferredAttributes.Expression.Token

-- Precedence climbing with its pending work in a list of frames. Tokens are taken one
-- at a time from left to right, and a step looks at nothing behind its token.
namespace DeferredAttributes.Expression

inductive PrefixOperator where
  | negate
  | not
deriving Repr, DecidableEq

-- Brackets leave no trace. The keywords `true` and `false` are numbers here.
inductive Expr where
  | number (x : Float)
  | name (identifier : String)
  | unary (op : PrefixOperator) (operand : Expr)
  | binary (op : BinaryOperator) (left right : Expr)

inductive Frame where
  | bracket
  | unary (op : PrefixOperator)
  | binary (left : Expr) (op : BinaryOperator)

def maxDepth : Nat := 64

def Frame.nests : Frame → Bool
  | .binary .. => false
  | _ => true

def depth (frames : List Frame) : Nat := frames.countP Frame.nests

inductive Reason where
  | token (error : TokenError)
  | unexpectedEnd
  | unclosed
  | tooDeep
  | notBinary
  | unexpected (found : Token)
  | expectedOperator (found : Token)

def Reason.message : Reason → String
  | .token error => error.message
  | .unexpectedEnd => "unexpected end of expression"
  | .unclosed => "expected ')'"
  | .tooDeep => "expression nested too deeply"
  | .notBinary => "'!' is not a binary operator"
  | .unexpected found => "unexpected " ++ found.describe
  | .expectedOperator found => "expected operator, found " ++ found.describe

structure Fault where
  reason : Reason
  offset : Nat

-- Reading so far: the frames, innermost first; the operand once it is complete; the
-- identifiers met, last first; and the end of the last token that was taken.
structure Parsing where
  frames : List Frame
  operand : Option Expr
  names : List String
  stop : Nat

def Parsing.start : Parsing := ⟨[],none,[],0⟩

def applyUnary : Expr → List Frame → Expr × List Frame
  | e, .unary op :: frames => applyUnary (.unary op e) frames
  | e, frames => (e,frames)

def applyBinary (tightness : Nat) : Expr → List Frame → Expr × List Frame
  | e, .binary left op :: frames =>
    if tightness ≤ op.precedence then applyBinary tightness (.binary op left e) frames
    else (e,.binary left op :: frames)
  | e, frames => (e,frames)

def Parsing.complete (p : Parsing) (e : Expr) (frames : List Frame) (stop : Nat) : Parsing :=
  let (e,frames) := applyUnary e frames
  { p with frames := frames, operand := some e, stop := stop }

def Parsing.nest (p : Parsing) (frame : Frame) (stop : Nat) : Except Fault Parsing :=
  if maxDepth ≤ depth p.frames then .error ⟨.tooDeep,stop⟩
  else .ok { p with frames := frame :: p.frames, stop := stop }

def Parsing.operandStep (p : Parsing) (l : Lexeme) : Except Fault Parsing :=
  match l.token with
  | .value x => .ok (p.complete (.number x) p.frames l.stop)
  | .identifier "true" => .ok (p.complete (.number 1) p.frames l.stop)
  | .identifier "false" => .ok (p.complete (.number 0) p.frames l.stop)
  | .identifier name => .ok ({ p with names := name :: p.names }.complete (.name name) p.frames l.stop)
  | .openBracket => p.nest .bracket l.stop
  | .operator (.binary .subtract) => p.nest (.unary .negate) l.stop
  | .operator .not => p.nest (.unary .not) l.stop
  | found => .error ⟨.unexpected found,l.stop⟩

-- A token that cannot follow is not taken, except for a closing bracket that nothing opened.
def Parsing.operatorStep (p : Parsing) (e : Expr) (l : Lexeme) : Except Fault Parsing :=
  match l.token with
  | .operator (.binary op) =>
    let (e,frames) := applyBinary op.precedence e p.frames
    .ok { p with frames := .binary e op :: frames, operand := none, stop := l.stop }
  | .closeBracket =>
    match applyBinary 0 e p.frames with
    | (e,.bracket :: frames) => .ok (p.complete e frames l.stop)
    | _ => .error ⟨.unexpected .closeBracket,l.stop⟩
  | .operator .not => .error ⟨.notBinary,p.stop⟩
  | found => .error ⟨.expectedOperator found,p.stop⟩

def Parsing.step (p : Parsing) (l : Lexeme) : Except Fault Parsing :=
  match p.operand with
  | none => p.operandStep l
  | some e => p.operatorStep e l

def Parsing.finish (p : Parsing) : Ending → Except Fault Expr
  | .rejected error => .error ⟨.token error,error.offset⟩
  | .finished length =>
    match p.operand with
    | none => .error ⟨.unexpectedEnd,length⟩
    | some e =>
      match applyBinary 0 e p.frames with
      | (e,[]) => .ok e
      | _ => .error ⟨.unclosed,length⟩

structure Parsed where
  names : List String
  outcome : Except Fault Expr

def Parsing.run (ending : Ending) : Parsing → List Lexeme → Parsed
  | p, [] => ⟨p.names.reverse,p.finish ending⟩
  | p, l :: rest =>
    match p.step l with
    | .ok q => q.run ending rest
    | .error fault => ⟨p.names.reverse,.error fault⟩

def parse (text : String) : Parsed :=
  let lexed := (Cursor.start text.toList).lexed
  Parsing.start.run lexed.ending lexed.lexemes

end DeferredAttributes.Expression
