-- What a command line can ask for, and by which settings.
namespace DeferredAttributes.CommandLine

inductive Format where
  | json
  | yaml
deriving Repr, DecidableEq

-- Without any source the documents are one text from standard input.
structure Input where
  workdir : Bool
  files : List String
  directories : List String
  bindings : List (String × Float)

inductive Command where
  | resolve (input : Input) (format : Format) (refresh : Bool)
  | evaluate (input : Input) (format : Format) (expression : String)
  | check (expression : String)

structure Request where
  changes : List String
  command : Command

inductive Verb where
  | resolve
  | evaluate
  | check
deriving Repr, DecidableEq

def Verb.ofName? : String → Option Verb
  | "resolve" => some .resolve
  | "evaluate" | "eval" => some .evaluate
  | "check" => some .check
  | _ => none

inductive Setting where
  | change
  | workdir
  | file
  | directory
  | bind
  | format
  | refresh
deriving Repr, DecidableEq

namespace Setting

def short? : Setting → Option Char
  | .change => some 'C'
  | .workdir => some 'w'
  | .file => some 'f'
  | .directory => some 'd'
  | .format => some 'F'
  | .bind | .refresh => none

def long : Setting → String
  | .change => "directory"
  | .workdir => "input-workdir"
  | .file => "input-file"
  | .directory => "input-dir"
  | .bind => "var"
  | .format => "output-format"
  | .refresh => "refresh"

def valueName? : Setting → Option String
  | .change => some "DIRECTORY"
  | .file => some "FILES"
  | .directory => some "DIRECTORIES"
  | .bind => some "NAME=VALUE"
  | .format => some "FORMAT"
  | .workdir | .refresh => none

def isRepeatable : Setting → Bool
  | .change | .file | .directory | .bind => true
  | .workdir | .format | .refresh => false

def text (s : Setting) : String :=
  "--" ++ s.long ++ match s.valueName? with
    | some name => " <" ++ name ++ ">"
    | none => ""

end Setting

def Verb.settings : Verb → List Setting
  | .resolve => [.change,.workdir,.file,.directory,.bind,.format,.refresh]
  | .evaluate => [.change,.workdir,.file,.directory,.bind,.format]
  | .check => [.change]

def Verb.operands : Verb → Nat
  | .resolve => 0
  | .evaluate | .check => 1

end DeferredAttributes.CommandLine
