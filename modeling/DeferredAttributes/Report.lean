import DeferredAttributes.Resolver.Basic
import DeferredAttributes.Schema.Spec

-- What a load or a refresh has to say. Nothing in it stops the others from being resolved.
namespace DeferredAttributes

inductive BlockFault where
  | labelMissing
  | tooManyLabels
  | containsBlock
  | notAtTopLevel
deriving Repr, DecidableEq

def BlockFault.message : BlockFault → String
  | .labelMissing => "type block label missing"
  | .tooManyLabels => "type block takes exactly one label"
  | .containsBlock => "type blocks cannot contain blocks"
  | .notAtTopLevel => "type blocks are only allowed at the top level"

-- A circular dependency lists every attribute that waits, with the keys it waits for.
inductive Issue where
  | failed (path : String) (origin : Origin) (error : ResolveError)
  | circularDependency (waiting : List (String × List String))
  | duplicateBlock (path : String) (origin existing : Origin)
  | duplicateAttribute (path : String) (origin : Origin)
  | unsupportedValue (name : String) (origin : Origin)
  | invalidSpec (name : String) (origin : Origin) (error : SpecError)
  | invalidBlock (origin : Origin) (fault : BlockFault)

def Issue.text : Issue → String
  | .failed path origin error => path ++ " in " ++ origin.text ++ ": " ++ error.message
  | .circularDependency waiting =>
    "circular dependency between " ++ toString waiting.length ++ " attributes:" ++
      String.join (waiting.map fun (path,blockers) =>
        "\n  " ++ path ++ " waits for " ++ ", ".intercalate blockers)
  | .duplicateBlock path origin existing =>
    "block " ++ path ++ " in " ++ origin.text ++ " collides with " ++ existing.text
  | .duplicateAttribute path origin => path ++ " in " ++ origin.text ++ " is defined more than once"
  | .unsupportedValue name origin => name ++ " in " ++ origin.text ++ " has a value that cannot be used as text"
  | .invalidSpec name origin error => "type of " ++ name ++ " in " ++ origin.text ++ ": " ++ error.message
  | .invalidBlock origin fault => origin.text ++ ": " ++ fault.message

abbrev Report := List Issue

def Report.text (report : Report) : String := "\n".intercalate (report.map Issue.text)

end DeferredAttributes
