import DeferredAttributes.Disk.Basic
import DeferredAttributes.Document.Configuration
import DeferredAttributes.Hcl.Body

-- Documents from files. The first fault ends a load and keeps what was loaded before it.
namespace DeferredAttributes

inductive LoadFault where
  | noFiles
  | disk (fault : DiskFault)
  | malformed
deriving Repr, DecidableEq

def LoadFault.message : LoadFault → String
  | .noFiles => "No files found in directory"
  | .disk _ => "IO error"
  | .malformed => "Unable to parse hcl file"

def malformedText : String := " --> HCL parse error"

def LoadFault.chain (fault : LoadFault) : List String :=
  fault.message :: match fault with
    | .noFiles => []
    | .disk fault => [fault.message]
    | .malformed => [malformedText]

def Document.ofText (source : Option String) (text : String) : Except LoadFault Document :=
  match Hcl.parse text with
  | some body => .ok ⟨source,body⟩
  | none => .error .malformed

section
variable {m : Type → Type} [Monad m] (disk : Disk m)

def loadPlace (place : Place) : m (Except LoadFault Document) := do
  match ← disk.read place with
  | .error fault => return .error (.disk fault)
  | .ok text => return Document.ofText (some (disk.written place)) text

def loadFile (directory : Place) (path : String) : m (Except LoadFault Document) := do
  match ← disk.find directory path with
  | .error fault => return .error (.disk fault)
  | .ok place => loadPlace disk place

def loadFiles (directory : Place) : List String → m (List Document × Option LoadFault)
  | [] => return ([],none)
  | path :: rest => do
    match ← loadFile disk directory path with
    | .error fault => return ([],some fault)
    | .ok document =>
      let (documents,fault) ← loadFiles directory rest
      return (document :: documents,fault)

def documentNames (names : List String) : List String :=
  (names.filter (·.endsWith ".hcl")).mergeSort fun a b => decide (a ≤ b)

def loadDirectory (directory : Place) (path : String) : m (List Document × Option LoadFault) := do
  match ← disk.find directory path with
  | .error fault => return ([],some (.disk fault))
  | .ok place =>
    match ← disk.files place with
    | .error fault => return ([],some (.disk fault))
    | .ok names =>
      match documentNames names with
      | [] => return ([],some .noFiles)
      | names => loadFiles disk place names

end
end DeferredAttributes
