import DeferredAttributes.Tree.Store
import DeferredAttributes.Report

-- One attempt to give one attribute its value.
namespace DeferredAttributes

-- A volatile one is computed anew by every refresh, whatever it reads.
structure Assignment where
  target : Key
  raw : String
  resolver : Resolver
  validator : Option Validator
  volatile : Bool

-- What a successful attempt found out. A value that its validator turns down is stored
-- all the same, so that others can go on.
structure Executed where
  deterministic : Bool
  rejected : Option String

namespace Assignment

def asked (a : Assignment) : Assignment := { a with resolver := a.resolver.asked }

def rejection (a : Assignment) (value : Value) : Option String :=
  match a.validator with
  | none => none
  | some validator =>
    match validator value with
    | .ok () => none
    | .error reason => some reason

def execute (environment : Environment) (t : Tree) (a : Assignment) : Except ResolveError (Executed × Tree) :=
  match a.resolver.resolve a.raw ⟨t,a.target.node,environment⟩ false with
  | (.error error,_) => .error error
  | (.ok value,read) =>
    let deterministic := !a.volatile && !read
    match t.write a.target value deterministic with
    | .error error => .error (.store error)
    | .ok t => .ok (⟨deterministic,a.rejection value⟩,t)

def issue (t : Tree) (a : Assignment) (error : ResolveError) : Issue :=
  .failed (t.displayKey a.target) (t.node a.target.node).origin error

end Assignment

end DeferredAttributes
