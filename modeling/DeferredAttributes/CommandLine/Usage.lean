import DeferredAttributes.CommandLine.Request

-- Command lines that ask for nothing that can be done.
namespace DeferredAttributes.CommandLine

def programName : String := "attres"

def about : String := "deferred attribute resolution for declarative game content"

inductive UsageError where
  | nothingGiven
  | missingCommand
  | unknownCommand (word : String)
  | unexpected (word : String)
  | missingOperand
  | valueRequired (setting : Setting)
  | unneededValue (value : String) (setting : Setting)
  | repeated (setting : Setting)
  | invalidValue (value : String) (setting : Setting) (reason : Option String)
deriving Repr, DecidableEq

def UsageError.message : UsageError → String
  | .nothingGiven => about
  | .missingCommand => "error: '" ++ programName ++ "' requires a subcommand but one was not provided"
  | .unknownCommand word => "error: unrecognized subcommand '" ++ word ++ "'"
  | .unexpected word => "error: unexpected argument '" ++ word ++ "' found"
  | .missingOperand => "error: the following required arguments were not provided:"
  | .valueRequired setting => "error: a value is required for '" ++ setting.text ++ "' but none was supplied"
  | .unneededValue value setting =>
    "error: unexpected value '" ++ value ++ "' for '" ++ setting.text ++ "' found; no more were expected"
  | .repeated setting => "error: the argument '" ++ setting.text ++ "' cannot be used multiple times"
  | .invalidValue value setting reason =>
    "error: invalid value '" ++ value ++ "' for '" ++ setting.text ++ "'" ++
      match reason with
      | some reason => ": " ++ reason
      | none => ""

end DeferredAttributes.CommandLine
