-- Tables by name that remember the order in which names came in.
namespace DeferredAttributes

-- A name that comes in again keeps its place and takes the new content.
abbrev Table (α : Type) := List (String × α)

namespace Table

def find? {α : Type} (table : Table α) (name : String) : Option α := table.lookup name

def contains {α : Type} (table : Table α) (name : String) : Bool := (table.find? name).isSome

def insert {α : Type} (table : Table α) (name : String) (content : α) : Table α :=
  match table with
  | [] => [(name,content)]
  | (known,old) :: rest =>
    if known = name then (known,content) :: rest else (known,old) :: insert rest name content

def names {α : Type} (table : Table α) : List String := table.map Prod.fst

def ofList {α : Type} (entries : List (String × α)) : Table α :=
  entries.foldl (fun table (name,content) => table.insert name content) []

theorem find_insert {α : Type} (table : Table α) (name other : String) (content : α) :
    (table.insert name content).find? other = if other = name then some content else table.find? other := by
  induction table with
  | nil => simp only [insert,find?,List.lookup_cons,List.lookup_nil]; grind
  | cons entry rest ih =>
    obtain ⟨known,old⟩ := entry
    simp only [insert,find?] at *
    split <;> simp only [List.lookup_cons] at * <;> grind

theorem names_insert {α : Type} (table : Table α) (name : String) (content : α) :
    (table.insert name content).names = if name ∈ table.names then table.names else table.names ++ [name] := by
  induction table with
  | nil => simp [insert,names]
  | cons entry rest ih =>
    obtain ⟨known,old⟩ := entry
    simp only [insert,names] at *
    split <;> grind

end Table
end DeferredAttributes
