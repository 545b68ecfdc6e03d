import DeferredAttributes.CommandLine.Program

-- The program on the machine that it runs on.
namespace DeferredAttributes

def faultOf : IO.Error → DiskFault
  | .noFileOrDirectory .. => .notFound
  | .inappropriateType _ code _ => if code == 21 then .isDirectory else .notDirectory
  | .permissionDenied _ code details => .other (details ++ " (os error " ++ toString code ++ ")")
  | error => .other (toString error)

def attempt {α : Type} (action : IO α) : IO (Except DiskFault α) := do
  try return .ok (← action) catch error => return .error (faultOf error)

def absolute (place : Place) : String := "/" ++ "/".intercalate place

def placeOf (path : String) : Place := (path.splitOn "/").filter (· != "")

def machine : Disk IO where
  written := absolute
  find directory path := do
    let path := if path.isEmpty || path.startsWith "/" then path else absolute directory ++ "/" ++ path
    match ← attempt (IO.FS.realPath ⟨path⟩) with
    | .ok found => return .ok (placeOf found.toString)
    | .error fault =>
      match ← attempt (IO.FS.readBinFile ⟨path⟩) with
      | .ok _ => return .error fault
      | .error cause => return .error cause
  read place := do
    match ← attempt (IO.FS.readBinFile ⟨absolute place⟩) with
    | .error fault => return .error fault
    | .ok bytes => return match String.fromUTF8? bytes with
      | some text => .ok text
      | none => .error .notText
  files place := attempt do
    let entries ← (← IO.FS.realPath ⟨absolute place⟩).readDir
    let plain ← entries.toList.filterM fun entry => return (← entry.path.symlinkMetadata).type == .file
    return plain.map (·.fileName)

end DeferredAttributes

open DeferredAttributes in
def main (words : List String) : IO UInt32 := do
  let directory := placeOf (← IO.currentDir).toString
  let answer ← CommandLine.run machine (do (← IO.getStdin).readToEnd) directory words
  IO.print answer.out
  (← IO.getStdout).flush
  IO.eprint answer.err
  return answer.code.toUInt32
