import DeferredAttributes.Hcl.Reading

-- Reading of whole documents: attributes and blocks, each on a line of its own.
namespace DeferredAttributes.Hcl

def attributeNames (body : Body) : List String := body.filterMap fun
  | .attribute name _ => some name
  | .block .. => none

def label : Reader String := do
  if ← accept "\"" then plainText else word

def labels : Nat → Reader (List String)
  | 0 => failure
  | n + 1 => do
    gap false
    if ← accept "\x7b" then return [] else
    let first ← label
    return first :: (← labels n)

def singleLine : Reader Body := do
  gap false
  if ← accept "\x7d" then return [] else
  let name ← word
  gap false
  expect "="
  let value ← value
  gap false
  expect "\x7d"
  return [.attribute name value]

mutual

-- Everything up to the first line that starts neither an attribute nor a block. No two
-- attributes have the same name.
def body : Nat → Reader Body
  | 0 => failure
  | n + 1 => do
    gap true
    if ← nextIs isWordStart then
      let first ← statement n
      lineEnd
      let others ← body n
      match first with
      | .attribute name _ =>
        if (attributeNames others).contains name then failure else return first :: others
      | .block .. => return first :: others
    else return []

def statement : Nat → Reader Structure
  | 0 => failure
  | n + 1 => do
    let name ← word
    gap false
    if ← accept "=" then return .attribute name (← value)
    else
      let labels ← labels n
      if (skipLineEnd (← ahead)).isSome then
        lineEnd
        let content ← body n
        expect "\x7d"
        return .block name labels content
      else return .block name labels (← singleLine)

end

def parse (text : String) : Option Body := do
  let (content,cursor) ← body (2 * text.length + 2) (.ofText text.toList)
  if cursor.ahead.isEmpty then some content else none

end DeferredAttributes.Hcl
