import Mathlib.Data.List.Nodup
import DeferredAttributes.Proofs.Tree.Shape

-- Writing one table over another: which entries the result has, and in which order.
namespace DeferredAttributes

namespace Table
variable {α : Type}

-- A table with another one written over it: a name that is known keeps its place and takes
-- the new content, the others come last.
def overlaid (table additions : Table α) : Table α :=
  table.map (fun entry => (entry.1,(additions.find? entry.1).getD entry.2)) ++
    additions.filter fun entry => !table.contains entry.1

theorem find_mem {table : Table α} (distinct : table.names.Nodup) {name : String} {content : α} :
    table.find? name = some content ↔ (name,content) ∈ table := by
  induction table with
  | nil => simp [find?]
  | cons entry rest ih =>
    obtain ⟨known,old⟩ := entry
    obtain ⟨fresh,later⟩ := List.nodup_cons.mp distinct
    unfold find? at ih ⊢
    rw [List.lookup_cons,List.mem_cons]
    cases same : name == known with
    | true =>
      cases beq_iff_eq.mp same
      have absent : (name,content) ∉ rest := fun member => fresh (List.mem_map.mpr ⟨_,member,rfl⟩)
      simp [absent,eq_comm]
    | false =>
      have different : name ≠ known := by simpa using same
      simp [ih later,different]

theorem find_absent {table : Table α} {name : String} (absent : name ∉ table.names) : table.find? name = none := by
  rw [mem_names,Table.contains,Option.isSome_iff_ne_none,not_not] at absent
  exact absent

theorem map_kept {table : Table α} {f : String × α → String × α} (kept : ∀ entry ∈ table, f entry = entry) :
    table.map f = table :=
  (List.map_congr_left kept).trans (List.map_id table)

theorem insert_known_map {table : Table α} (distinct : table.names.Nodup) {name : String} (content : α)
    (known : name ∈ table.names) :
    table.insert name content = table.map fun entry => (entry.1,if entry.1 = name then content else entry.2) := by
  induction table with
  | nil => cases known
  | cons entry rest ih =>
    obtain ⟨first,old⟩ := entry
    obtain ⟨fresh,later⟩ := List.nodup_cons.mp distinct
    unfold insert
    by_cases same : first = name
    · subst same
      have kept : rest.map (fun entry => (entry.1,if entry.1 = first then content else entry.2)) = rest := by
        refine map_kept fun other member => ?_
        have different : other.1 ≠ first := fun equal => fresh (equal ▸ List.mem_map.mpr ⟨other,member,rfl⟩)
        rw [if_neg different]
      rw [if_pos rfl,List.map_cons,if_pos rfl,kept]
    · have inside : name ∈ names rest := (List.mem_cons.mp known).resolve_left (Ne.symm same)
      rw [if_neg same,List.map_cons,if_neg same,ih later inside]

theorem insert_new {table : Table α} {name : String} (content : α) (new : name ∉ table.names) :
    table.insert name content = table ++ [(name,content)] := by
  induction table with
  | nil => rfl
  | cons entry rest ih =>
    obtain ⟨first,old⟩ := entry
    obtain ⟨other,later⟩ := not_or.mp fun member => new (List.mem_cons.mpr member)
    unfold insert
    rw [if_neg (Ne.symm other),ih later,List.cons_append]

theorem names_insert_nodup {table : Table α} (distinct : table.names.Nodup) (name : String) (content : α) :
    (table.insert name content).names.Nodup := by
  rw [names_insert]
  split
  · exact distinct
  · rename_i new
    exact distinct.append (List.nodup_singleton name) (by simpa using new)

theorem overlaid_cons {table additions : Table α} (distinct : table.names.Nodup) {name : String} (content : α)
    (new : name ∉ additions.names) :
    (table.insert name content).overlaid additions = table.overlaid ((name,content) :: additions) := by
  have apart : ∀ entry ∈ additions, entry.1 ≠ name := fun entry member same =>
    new (same ▸ List.mem_map.mpr ⟨entry,member,rfl⟩)
  have filtered : (additions.filter fun entry => !(table.insert name content).contains entry.1) =
      additions.filter fun entry => !table.contains entry.1 := by
    apply List.filter_congr
    intro entry member
    simp [contains_insert,apart entry member]
  have changed : ∀ entry : String × α, (find? ((name,content) :: additions) entry.1).getD entry.2 =
      (additions.find? entry.1).getD (if entry.1 = name then content else entry.2) := by
    intro entry
    unfold find?
    by_cases same : entry.1 = name
    · have absent : List.lookup name additions = none := find_absent new
      simp [same,absent]
    · have different : (entry.1 == name) = false := by simpa using same
      rw [List.lookup_cons,different,if_neg same]
  unfold overlaid
  rw [filtered,List.filter_cons]
  by_cases known : name ∈ table.names
  · have has : table.contains name = true := (mem_names table name).mp known
    rw [insert_known_map distinct content known,List.map_map,has]
    simp only [Bool.not_true,Bool.false_eq_true,if_false,Function.comp_def,changed]
  · have lacks : table.contains name = false := by simpa [mem_names] using known
    have kept : table.map (fun entry => (entry.1,(find? ((name,content) :: additions) entry.1).getD entry.2)) =
        table.map fun entry => (entry.1,(additions.find? entry.1).getD entry.2) := by
      apply List.map_congr_left
      intro entry member
      have different : entry.1 ≠ name := fun same => known (same ▸ List.mem_map.mpr ⟨entry,member,rfl⟩)
      rw [changed,if_neg different]
    rw [insert_new content known,List.map_append,List.map_cons,List.map_nil,find_absent new,kept,lacks]
    simp

theorem foldl_insert {table additions : Table α} (distinct : table.names.Nodup) (once : additions.names.Nodup) :
    additions.foldl (fun table entry => table.insert entry.1 entry.2) table = table.overlaid additions := by
  induction additions generalizing table with
  | nil => simp [overlaid,find?]
  | cons entry rest ih =>
    obtain ⟨name,content⟩ := entry
    obtain ⟨new,later⟩ := List.nodup_cons.mp once
    rw [List.foldl_cons,ih (names_insert_nodup distinct name content) later,overlaid_cons distinct content new]

theorem names_overlaid_nodup {table additions : Table α} (distinct : table.names.Nodup) (once : additions.names.Nodup) :
    (table.overlaid additions).names.Nodup := by
  rw [← foldl_insert distinct once]
  clear once
  induction additions generalizing table with
  | nil => exact distinct
  | cons entry rest ih => exact ih (names_insert_nodup distinct entry.1 entry.2)

theorem find_overlaid {table additions : Table α} (distinct : table.names.Nodup) (once : additions.names.Nodup)
    (name : String) : (table.overlaid additions).find? name = (additions.find? name).or (table.find? name) := by
  rw [← foldl_insert distinct once]
  induction additions generalizing table with
  | nil => rfl
  | cons entry rest ih =>
    obtain ⟨first,content⟩ := entry
    obtain ⟨new,later⟩ := List.nodup_cons.mp once
    rw [List.foldl_cons,ih (names_insert_nodup distinct first content) later,find_insert]
    unfold find?
    rw [List.lookup_cons]
    by_cases same : name = first
    · have absent : List.lookup first rest = none := find_absent new
      simp [same,absent]
    · have different : (name == first) = false := by simpa using same
      rw [if_neg same,different]

theorem overlaid_append {table additions : Table α} (distinct : table.names.Nodup) (once : additions.names.Nodup) :
    table.overlaid additions = table ++ additions ↔ ∀ name ∈ table.names, name ∉ additions.names := by
  constructor
  · intro all name known
    have nodup := names_overlaid_nodup distinct once
    rw [all,names,List.map_append] at nodup
    exact fun again => (List.nodup_append.mp nodup).2.2 name known name again rfl
  · intro apart
    have kept : table.map (fun entry => (entry.1,(additions.find? entry.1).getD entry.2)) = table := by
      refine map_kept fun entry member => ?_
      rw [find_absent (apart entry.1 (List.mem_map.mpr ⟨entry,member,rfl⟩)),Option.getD_none]
    have all : additions.filter (fun entry => !table.contains entry.1) = additions := by
      rw [List.filter_eq_self]
      intro entry member
      rw [Bool.not_eq_true',← Bool.not_eq_true,← mem_names]
      exact fun known => apart entry.1 known (List.mem_map.mpr ⟨entry,member,rfl⟩)
    unfold overlaid
    rw [kept,all]

end Table
end DeferredAttributes
