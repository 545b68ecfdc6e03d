import DeferredAttributes.Resolver.Basic

-- Resolvers and validators that a host can put beside the built-in ones.
namespace DeferredAttributes.Supplied

def copy (type : ValueType) : Resolver :=
  .custom type (fun _ scope raw volatile =>
    match scope.get raw volatile with
    | (.ok value,volatile) => (.ok value,volatile)
    | (.error error,volatile) => (.error (.ofLookup error),volatile)) 0

def counter (type : ValueType) : Resolver :=
  .custom type (fun calls _ _ volatile =>
    let count : Int := (calls + 1 : Nat)
    (.ok (if type = .decimal then .decimal (Float.ofInt count) else .integer count),volatile)) 0

def flip (type : ValueType) : Resolver :=
  .custom type (fun calls _ _ volatile => (.ok (if calls % 2 = 0 then .decimal 1 else .integer 1),volatile)) 0

def reject (type : ValueType) : Resolver :=
  .custom type (fun _ _ raw volatile => (.error (.validation raw),volatile)) 0

def object (type : ValueType) : Resolver :=
  .custom type (fun _ scope raw volatile => (.ok (.object [(raw,.integer scope.node)]),volatile)) 0

def unsteady (type : ValueType) : Resolver :=
  .custom type (fun _ _ raw _ => (Resolver.converted (type.parseLiteral raw),true)) 0

def positive : Validator := fun value =>
  match value.number? with
  | some x => if 0 < x then .ok () else .error (value.text ++ " is not positive")
  | none => .error (value.text ++ " is not positive")

def finite : Validator := fun value =>
  match value.number? with
  | some x => if x - x == 0 then .ok () else .error "must be finite"
  | none => .error "must be finite"

end DeferredAttributes.Supplied
