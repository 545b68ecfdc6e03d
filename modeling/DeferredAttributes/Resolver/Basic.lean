import DeferredAttributes.Resolver.Scope
import DeferredAttributes.Tree.Store

-- From raw text to a value of a declared type.
namespace DeferredAttributes
open Expression

-- `blocked` names a key that may still get a value; it is the only cause that waiting can cure.
inductive ResolveError where
  | blocked (key : Key)
  | unknownIdentifier (name : String)
  | malformed (expression : String) (fault : Fault)
  | lookup (error : LookupError)
  | conversion (error : ConversionError)
  | store (error : StoreError)
  | validation (reason : String)

namespace ResolveError

def message : ResolveError → String
  | .blocked key => "waiting for '" ++ key.name ++ "'"
  | .unknownIdentifier name => "unknown identifier '" ++ name ++ "'"
  | .malformed expression fault => fault.message expression
  | .lookup error => error.message
  | .conversion error => error.message
  | .store error => error.message
  | .validation reason => reason

def ofLookup : LookupError → ResolveError
  | .notInitialized key => .blocked key
  | .unknown name => .unknownIdentifier name
  | error => .lookup error

def ofExpression : ExpressionError → ResolveError
  | .lookup _ error => ofLookup error
  | .malformed expression fault => .malformed expression fault

end ResolveError

abbrev Answer := Scope → String → Reading ResolveError Value

-- A resolver of the host may answer differently each time, so it counts the answers given so
-- far; nothing checks that its values have the type.
inductive Resolver where
  | literal (type : ValueType)
  | expression (type : ValueType)
  | custom (type : ValueType) (answer : Nat → Answer) (calls : Nat)

namespace Resolver

def ofType (type : ValueType) : Resolver :=
  if type.isNumeric then .expression type else .literal type

def type : Resolver → ValueType
  | .literal type | .expression type | .custom type _ _ => type

def check (r : Resolver) (raw : String) : Except ResolveError Unit :=
  match r with
  | .expression _ =>
    match Expression.check raw with
    | .ok () => .ok ()
    | .error error => .error (.ofExpression error)
  | _ => .ok ()

def converted : Except ConversionError Value → Except ResolveError Value
  | .ok value => .ok value
  | .error error => .error (.conversion error)

def resolve (r : Resolver) (raw : String) (scope : Scope) : Reading ResolveError Value := fun volatile =>
  match r with
  | .literal type => (converted (type.parseLiteral raw),volatile)
  | .expression type =>
    match evaluate scope.lookup raw volatile with
    | (.ok x,volatile) => (converted (type.fromNumber x),volatile)
    | (.error error,volatile) => (.error (.ofExpression error),volatile)
  | .custom _ answer calls => answer calls scope raw volatile

def asked : Resolver → Resolver
  | .custom type answer calls => .custom type answer (calls + 1)
  | r => r

end Resolver

abbrev Validator := Value → Except String Unit

end DeferredAttributes
