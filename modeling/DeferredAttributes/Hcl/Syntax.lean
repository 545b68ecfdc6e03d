import DeferredAttributes.Hcl.Number

-- What documents are made of, with blanks and comments gone.
namespace DeferredAttributes.Hcl

-- A piece of a text with insertions: text that stands for itself, or a term with the way
-- it was given. What is inserted is written back as given, blanks and comments included.
inductive Part (α : Type) where
  | literal (s : String)
  | insertion (inner : α) (given : String)

-- What may stand behind the sign of an attribute. Values are kept to be written back, not
-- to be computed: how tightly binary operators bind does not show, so all of them hold
-- whatever follows.
inductive Term where
  | null
  | boolean (b : Bool)
  | number (n : Number)
  | text (s : String)
  | template (parts : List (Part Term))
  | heredoc (indented : Bool) (delimiter : String) (parts : List (Part Term))
  | name (identifier : String)
  | call (function : String) (arguments : List Term)
  | bracketed (inner : Term)
  | list (items : List Term)
  | object (entries : List (Term × Term))
  | member (owner : Term) (name : String)
  | index (owner position : Term)
  | unary (symbol : String) (operand : Term)
  | binary (left : Term) (symbol : String) (right : Term)
  | conditional (condition yes no : Term)

def Term.same : Term → Term → Bool
  | .null, .null => true
  | .boolean a, .boolean b => a == b
  | .number a, .number b => a.same b
  | .text a, .text b => a == b
  | .template a, .template b => sameParts a b
  | .heredoc i d a, .heredoc j e b => i == j && d == e && sameParts a b
  | .name a, .name b => a == b
  | .call f a, .call g b => f == g && sameAll a b
  | .bracketed a, .bracketed b => a.same b
  | .list a, .list b => sameAll a b
  | .object a, .object b => sameEntries a b
  | .member a x, .member b y => a.same b && x == y
  | .index a x, .index b y => a.same b && x.same y
  | .unary s a, .unary t b => s == t && a.same b
  | .binary a s x, .binary b t y => a.same b && s == t && x.same y
  | .conditional a x p, .conditional b y q => a.same b && x.same y && p.same q
  | _, _ => false
where
  sameAll : List Term → List Term → Bool
    | [], [] => true
    | a :: rest, b :: others => a.same b && sameAll rest others
    | _, _ => false
  sameEntries : List (Term × Term) → List (Term × Term) → Bool
    | [], [] => true
    | (k,v) :: rest, (l,w) :: others => k.same l && v.same w && sameEntries rest others
    | _, _ => false
  sameParts : List (Part Term) → List (Part Term) → Bool
    | [], [] => true
    | .literal s :: rest, .literal t :: others => s == t && sameParts rest others
    | .insertion a _ :: rest, .insertion b _ :: others => a.same b && sameParts rest others
    | _, _ => false

inductive Structure where
  | attribute (name : String) (value : Term)
  | block (kind : String) (labels : List String) (body : List Structure)

abbrev Body := List Structure

end DeferredAttributes.Hcl
