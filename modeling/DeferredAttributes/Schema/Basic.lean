import DeferredAttributes.Schema.Spec
import DeferredAttributes.Resolution.Assignment

-- Blocks as they are written, and what is declared about their attributes.
namespace DeferredAttributes

-- Attributes are raw text, in order and with repetitions.
structure Block where
  kind : String
  name : String
  origin : Origin
  attributes : List (String × String)
  children : List Block

-- By the kind of a block and the key.
abbrev Schema := Table (Table Spec)

namespace Schema

def declare (schema : Schema) (kind name : String) (spec : Spec) : Schema :=
  schema.insert kind (((schema.find? kind).getD []).insert name spec)

def spec (schema : Schema) (kind name : String) : Spec :=
  ((schema.find? kind).bind fun specs => specs.find? name).getD .default

def assignment (schema : Schema) (kind : String) (key : Key) (raw : String) : Assignment :=
  let spec := schema.spec kind key.name
  { target := key
    raw := raw
    resolver := .ofType spec.type
    validator := spec.condition.map checkCondition
    volatile := spec.volatile }

end Schema
end DeferredAttributes
