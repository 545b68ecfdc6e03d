-- Files and directories as far as documents are loaded from them.
namespace DeferredAttributes

inductive DiskFault where
  | notFound
  | notDirectory
  | isDirectory
  | notText
  | other (text : String)
deriving Repr, DecidableEq

def DiskFault.message : DiskFault → String
  | .notFound => "No such file or directory (os error 2)"
  | .notDirectory => "Not a directory (os error 20)"
  | .isDirectory => "Is a directory (os error 21)"
  | .notText => "stream did not contain valid UTF-8"
  | .other text => text

-- The names from the top of a disk to a place, without `.`, `..` and links.
abbrev Place := List String

structure Disk (m : Type → Type) where
  written : Place → String
  find : Place → String → m (Except DiskFault Place)
  read : Place → m (Except DiskFault String)
  files : Place → m (Except DiskFault (List String))

end DeferredAttributes
