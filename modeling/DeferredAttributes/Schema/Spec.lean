import DeferredAttributes.Expression.Evaluate
import DeferredAttributes.Value.Json

-- Declarations of attributes as text, and the conditions in them.
namespace DeferredAttributes
open Expression Text

structure Spec where
  type : ValueType
  volatile : Bool
  condition : Option String
deriving Repr, DecidableEq

def Spec.default : Spec := ⟨.decimal,false,none⟩

inductive SpecError where
  | empty
  | type (error : ConversionError)
  | unexpected (word : String)
  | conditionOnString
  | condition (error : ExpressionError)

def SpecError.message : SpecError → String
  | .empty => "missing type"
  | .type error => error.message
  | .unexpected word => "unexpected '" ++ word ++ "'"
  | .conditionOnString => "conditions only apply to numeric types"
  | .condition error => "invalid condition: " ++ error.message

def conditionSource (value : Float) : Source Unit := fun name s =>
  (if name = "value" then .ok value else .error (.unknown name),s)

def checkCondition (condition : String) (value : Value) : Except String Unit :=
  match value.number? with
  | none => .error (value.text ++ " is not numeric")
  | some x =>
    match evaluate (conditionSource x) condition () with
    | (.ok result,_) =>
      if result != 0 then .ok () else .error (value.text ++ " does not satisfy '" ++ condition ++ "'")
    | (.error error,_) => .error error.message

namespace Spec

def parseHead (head : List Char) : Except SpecError (Bool × ValueType) :=
  let (volatile,rest) := match (words head).map String.ofList with
    | "volatile" :: rest => (true,rest)
    | rest => (false,rest)
  match rest with
  | [] => .error .empty
  | word :: rest =>
    match ValueType.parse word with
    | .error error => .error (.type error)
    | .ok type =>
      match rest with
      | [] => .ok (volatile,type)
      | extra :: _ => .error (.unexpected extra)

-- [volatile] <type> [where <condition>]. The condition is tried once, with the value 1.
def parse (text : String) : Except SpecError Spec :=
  match splitOnce? " where ".toList text.toList with
  | none =>
    match parseHead text.toList with
    | .ok (volatile,type) => .ok ⟨type,volatile,none⟩
    | .error error => .error error
  | some (head,rest) =>
    match parseHead head with
    | .error error => .error error
    | .ok (volatile,type) =>
      let condition := String.ofList (trim rest)
      if !type.isNumeric then .error .conditionOnString else
      match (evaluate (conditionSource 1) condition ()).1 with
      | .ok _ => .ok ⟨type,volatile,some condition⟩
      | .error error => .error (.condition error)

end Spec
end DeferredAttributes
