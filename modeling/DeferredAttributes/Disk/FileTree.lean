import DeferredAttributes.Disk.Basic

-- A disk that is a value and holds what was put into it.
namespace DeferredAttributes

-- A file may be listed without the directories above it. Of two files in one place the
-- later one counts. `name` is how the top is written.
structure FileTree where
  name : String
  directories : List Place
  files : List (Place × ByteArray)

namespace FileTree

def content? (t : FileTree) (place : Place) : Option ByteArray := t.files.reverse.lookup place

def isDirectory (t : FileTree) (place : Place) : Bool :=
  place.isEmpty || t.directories.any (place.isPrefixOf ·) ||
  t.files.any fun file => place.isPrefixOf file.1.dropLast

def exists? (t : FileTree) (place : Place) : Bool := t.isDirectory place || (t.content? place).isSome

def enter (t : FileTree) (place : Place) (name : String) : Except DiskFault Place :=
  if !t.isDirectory place then .error .notDirectory
  else if name == "" || name == "." then .ok place
  else if name == ".." then if place.isEmpty then .error .notFound else .ok place.dropLast
  else if t.exists? (place ++ [name]) then .ok (place ++ [name])
  else .error .notFound

def find (t : FileTree) (directory : Place) (path : String) : Except DiskFault Place :=
  if path.isEmpty || path.front == '/' then .error .notFound
  else (path.splitOn "/").foldlM t.enter directory

def read (t : FileTree) (place : Place) : Except DiskFault String :=
  match t.content? place with
  | some bytes =>
    match String.fromUTF8? bytes with
    | some text => .ok text
    | none => .error .notText
  | none => .error (if t.isDirectory place then .isDirectory else .notFound)

def filesOf (t : FileTree) (place : Place) : Except DiskFault (List String) :=
  if t.isDirectory place then
    .ok (t.files.filterMap fun file => if file.1.dropLast == place then file.1.getLast? else none).eraseDups
  else .error (if t.exists? place then .notDirectory else .notFound)

def disk (t : FileTree) : Disk Id where
  written place := "/".intercalate (t.name :: place)
  find directory path := t.find directory path
  read place := t.read place
  files place := t.filesOf place

end FileTree
end DeferredAttributes
