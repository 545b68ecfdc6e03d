import DeferredAttributes.Block.Loading
import DeferredAttributes.CommandLine.Reading
import DeferredAttributes.Document.Configuration
import DeferredAttributes.Document.Loading
import DeferredAttributes.Tree.Rendering
import DeferredAttributes.Value.Yaml

-- What the commands answer. The disk and standard input are asked for no more than a
-- command needs; a command that reads files leaves standard input alone.
namespace DeferredAttributes.CommandLine
open Expression

structure Answer where
  code : UInt8
  out : String
  err : String

def failed (lines : List String) : Answer := ⟨1,"",String.join (lines.map (· ++ "\n"))⟩

def Format.print (format : Format) (value : Value) : String :=
  match format with
  | .json => value.prettyJson 0
  | .yaml => value.yaml

def Input.environment (input : Input) : Environment := .ofTable (Table.ofList input.bindings)

def loadDocuments (environment : Environment) (documents : List Document) : Report × Resolution :=
  let c := Configuration.ofDocuments documents
  let (report,s) := c.root.load c.schema environment
  (report ++ c.issues,s)

def resolveAll (input : Input) (format : Format) (refresh : Bool)
    (documents : List Document) : Answer :=
  let (report,s) := loadDocuments input.environment documents
  let (report,s) := if refresh then
      let (later,s) := s.refresh input.environment none
      (report ++ later,s)
    else (report,s)
  let out := format.print (s.tree.toValue 0)
  if report.isEmpty then ⟨0,out,""⟩ else ⟨1,out,report.text ++ "\n"⟩

def expressionErrorChain (error : ExpressionError) : List String :=
  error.message :: match error with
    | .malformed .. => []
    | .lookup _ error => [error.message]

-- The expression is evaluated at the root. A key without a value is one that failed to
-- load, and for the expression as unknown as one that nobody declared.
def evaluateAtRoot (input : Input) (format : Format) (expression : String) (documents : List Document) : Answer :=
  let (_,s) := loadDocuments input.environment documents
  let scope : Scope := ⟨s.tree,0,input.environment⟩
  match (evaluate scope.lookup expression false).1 with
  | .ok x => ⟨0,format.print (.decimal x),""⟩
  | .error (.lookup _ (.notInitialized key)) =>
    failed ["unknown identifier '" ++ s.tree.displayKey key ++ "'"]
  | .error error => failed (expressionErrorChain error)

def checkSyntax (expression : String) : Answer :=
  match check expression with
  | .ok () => ⟨0,"ok\n",""⟩
  | .error error => failed (expressionErrorChain error)

section
variable {m : Type → Type} [Monad m] (disk : Disk m) (stdin : m String)

def loadAll (load : String → m (List Document × Option LoadFault)) :
    List String → m (Except LoadFault (List Document))
  | [] => return .ok []
  | path :: rest => do
    match ← load path with
    | (_,some fault) => return .error fault
    | (documents,none) =>
      match ← loadAll load rest with
      | .error fault => return .error fault
      | .ok others => return .ok (documents ++ others)

def loadOne (directory : Place) (path : String) : m (List Document × Option LoadFault) := do
  match ← loadFile disk directory path with
  | .ok document => return ([document],none)
  | .error fault => return ([],some fault)

def Input.documents (input : Input) (directory : Place) : m (Except (List String) (List Document)) := do
  if !input.workdir && input.files.isEmpty && input.directories.isEmpty then
    match Document.ofText none (← stdin) with
    | .ok document => return .ok [document]
    | .error _ => return .error [malformedText]
  match ← loadAll (loadDirectory disk directory) (if input.workdir then ["."] else []) with
  | .error fault => return .error fault.chain
  | .ok own =>
    match ← loadAll (loadOne disk directory) input.files with
    | .error fault => return .error fault.chain
    | .ok files =>
      match ← loadAll (loadDirectory disk directory) input.directories with
      | .error fault => return .error fault.chain
      | .ok others => return .ok (own ++ files ++ others)

def changeDirectory : Place → List String → m (Except (List String) Place)
  | directory, [] => return .ok directory
  | directory, path :: rest => do
    match ← disk.find directory path with
    | .error fault => return .error ["Failed to resolve path for -C/--directory " ++ path,fault.message]
    | .ok place =>
      match ← disk.find place "." with
      | .error fault => return .error ["Failed to set work directory to " ++ disk.written place,fault.message]
      | .ok place => changeDirectory place rest

def Command.answer (directory : Place) : Command → m Answer
  | .check expression => return checkSyntax expression
  | .resolve input format refresh => do
    match ← input.documents disk stdin directory with
    | .error lines => return failed lines
    | .ok documents => return resolveAll input format refresh documents
  | .evaluate input format expression => do
    match ← input.documents disk stdin directory with
    | .error lines => return failed lines
    | .ok documents => return evaluateAtRoot input format expression documents

def run (directory : Place) (words : List String) : m Answer := do
  match readRequest words with
  | .error error => return ⟨2,"",error.message ++ "\n"⟩
  | .ok request =>
    match ← changeDirectory disk directory request.changes with
    | .error lines => return failed lines
    | .ok directory => request.command.answer disk stdin directory

end
end DeferredAttributes.CommandLine
