import DeferredAttributes.CommandLine.Usage
import DeferredAttributes.Decimal.Reading
import DeferredAttributes.Text.Blank

-- From the words of a command line to a request. Words are taken one after the other, and
-- a word that cannot be understood counts before a value that came earlier and is wrong.
namespace DeferredAttributes.CommandLine
open Text

inductive Given where
  | change (path : String)
  | workdir
  | file (path : String)
  | directory (path : String)
  | bind (name : String) (value : Float)
  | format (format : Format)
  | refresh

def readBinding (text : String) : Except String (String × Float) :=
  match splitOnce? ['='] text.toList with
  | none => .error ("expected NAME=VALUE, got '" ++ text ++ "'")
  | some (name,value) =>
    match Decimal.read (trim value) with
    | .ok x => .ok (String.ofList (trim name),x)
    | .error fault => .error ("invalid value for '" ++ String.ofList name ++ "': " ++ fault.message)

def Setting.read (s : Setting) (value : String) : Except UsageError Given :=
  match s with
  | .workdir => .ok .workdir
  | .refresh => .ok .refresh
  | .change => if value.isEmpty then .error (.valueRequired s) else .ok (.change value)
  | .file => if value.isEmpty then .error (.valueRequired s) else .ok (.file value)
  | .directory => if value.isEmpty then .error (.valueRequired s) else .ok (.directory value)
  | .bind =>
    match readBinding value with
    | .ok (name,x) => .ok (.bind name x)
    | .error reason => .error (.invalidValue value s (some reason))
  | .format =>
    if value == "json" then .ok (.format .json)
    else if value == "yaml" then .ok (.format .yaml)
    else if value.isEmpty then .error (.valueRequired s)
    else .error (.invalidValue value s none)

-- The last setting is open as long as its value is not settled. Behind `--` there are none.
structure Words where
  given : List (Setting × Given)
  open? : Option (Setting × Option String)
  operands : List String
  plain : Bool

namespace Words

def none : Words := ⟨[],Option.none,[],false⟩

def add (w : Words) (s : Setting) (value : String) : Except UsageError Words := do
  if !s.isRepeatable && w.given.any (·.1 == s) then throw (.repeated s)
  return { w with given := w.given ++ [(s,← s.read value)] }

def settle (w : Words) : Except UsageError Words :=
  match w.open? with
  | .none => .ok w
  | some (s,.none) => .error (.valueRequired s)
  | some (s,some value) => { w with open? := .none }.add s value

def awaitsValue (w : Words) : Bool := w.open?.any (·.2.isNone)

def addLong (known : List Setting) (w : Words) (text : List Char) : Except UsageError Words := do
  let name := String.ofList (text.takeWhile (· != '='))
  let value? := match text.dropWhile (· != '=') with
    | _ :: value => some (String.ofList value)
    | [] => Option.none
  let some s := known.find? (·.long == name) | throw (.unexpected ("--" ++ name))
  match s.valueName?, value? with
  | some _, some value => (← w.settle).add s value
  | some _, .none => return { ← w.settle with open? := some (s,.none) }
  | .none, some value => throw (.unneededValue value s)
  | .none, .none => (← w.settle).add s ""

-- The first letter with a value takes the rest of the word for it.
def addShort (known : List Setting) (w : Words) : List Char → Except UsageError Words
  | [] => .ok w
  | c :: rest => do
    let some s := known.find? (·.short? == some c) | throw (.unexpected ("-" ++ c.toString))
    if s.valueName?.isNone then ((← (← w.settle).add s "").addShort known rest)
    else match rest with
      | [] => return { ← w.settle with open? := some (s,.none) }
      | '=' :: value => (← w.settle).add s (String.ofList value)
      | value => (← w.settle).add s (String.ofList value)

def take (known : List Setting) (operand : Words → String → Except UsageError Words)
    (w : Words) (word : String) : Except UsageError Words :=
  if w.plain then operand w word else
  match word.toList with
  | ['-','-'] => .ok { w with plain := true }
  | '-' :: '-' :: text => w.addLong known text
  | '-' :: c :: text => w.addShort known (c :: text)
  | _ =>
    match w.open? with
    | some (s,.none) => .ok { w with open? := some (s,some word) }
    | _ => operand w word

end Words

def Verb.addOperand (verb : Verb) (w : Words) (word : String) : Except UsageError Words := do
  if verb.operands ≤ w.operands.length then throw (.unexpected word)
  let w ← w.settle
  return { w with operands := w.operands ++ [word] }

def Verb.read (verb : Verb) (words : List String) : Except UsageError Words := do
  let w ← words.foldlM (Words.take verb.settings verb.addOperand) .none
  let w ← w.settle
  if w.operands.length < verb.operands then throw .missingOperand
  return w

def rejectOperand (_ : Words) (word : String) : Except UsageError Words :=
  .error (if (Verb.ofName? word).isSome then .unexpected word else .unknownCommand word)

def readVerb : Words → List String → Except UsageError (Words × Verb × List String)
  | w, [] => do
    let w ← w.settle
    throw (if w.given.isEmpty then .nothingGiven else .missingCommand)
  | w, word :: rest => do
    if !w.plain && !w.awaitsValue then
      if let some verb := Verb.ofName? word then return (← w.settle,verb,rest)
    readVerb (← w.take [.change] rejectOperand word) rest

def changes (given : List Given) : List String := given.filterMap fun
  | .change path => some path
  | _ => none

def inputOf (given : List Given) : Input where
  workdir := given.any fun | .workdir => true | _ => false
  files := given.filterMap fun | .file path => some path | _ => none
  directories := given.filterMap fun | .directory path => some path | _ => none
  bindings := given.filterMap fun | .bind name x => some (name,x) | _ => none

def formatOf (given : List Given) : Format :=
  (given.findSome? fun | .format format => some format | _ => none).getD .yaml

def refreshes (given : List Given) : Bool := given.any fun | .refresh => true | _ => false

def readRequest (words : List String) : Except UsageError Request := do
  let (before,verb,rest) ← readVerb .none words
  let w ← verb.read rest
  let given := w.given.map Prod.snd
  let own := changes given
  let operand := w.operands.headD ""
  let command : Command := match verb with
    | .resolve => .resolve (inputOf given) (formatOf given) (refreshes given)
    | .evaluate => .evaluate (inputOf given) (formatOf given) operand
    | .check => .check operand
  return ⟨if own.isEmpty then changes (before.given.map Prod.snd) else own,command⟩

end DeferredAttributes.CommandLine
