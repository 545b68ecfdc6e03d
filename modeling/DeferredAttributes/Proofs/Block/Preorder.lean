import DeferredAttributes.Block.Loading

-- What a block tree comes down to, said without a tree of nodes: the blocks that get a
-- node, in the order of their numbers, and the attributes that each of them declares.
namespace DeferredAttributes

-- Of several items of one name the first. Names in `taken` are not wanted at all.
def firsts {α : Type} (name : α → String) (taken : List String) : List α → List α
  | [] => []
  | item :: rest =>
    if name item ∈ taken then firsts name taken rest else item :: firsts name (name item :: taken) rest

mutual

-- A block, and below it every child whose name is new among its siblings.
def Block.preorder : Block → List Block
  | ⟨kind,name,origin,attributes,children⟩ => ⟨kind,name,origin,attributes,children⟩ :: preorderBelow [] children

def preorderBelow (taken : List String) : List Block → List Block
  | [] => []
  | child :: rest =>
    if child.name ∈ taken then preorderBelow taken rest
    else child.preorder ++ preorderBelow (child.name :: taken) rest

end

theorem Block.preorder_cons (b : Block) : b.preorder = b :: preorderBelow [] b.children := by
  cases b
  simp only [Block.preorder]

def Block.Repeats (b : Block) : Prop :=
  ¬(b.attributes.map Prod.fst).Nodup ∨ ¬(b.children.map Block.name).Nodup

def Block.assignments (schema : Schema) (b : Block) (i : Nat) : List Assignment :=
  (firsts Prod.fst [] b.attributes).map fun entry => schema.assignment b.kind ⟨i,entry.1⟩ entry.2

section
variable {α : Type} {name : α → String}

theorem mem_firsts {taken : List String} {items : List α} {item : α} (member : item ∈ firsts name taken items) :
    item ∈ items ∧ name item ∉ taken := by
  induction items generalizing taken with
  | nil => cases member
  | cons first rest ih =>
    unfold firsts at member
    split at member
    · exact ⟨List.mem_cons_of_mem _ (ih member).1,(ih member).2⟩
    · rename_i fresh
      rcases List.mem_cons.mp member with rfl | later
      · exact ⟨List.mem_cons_self,fresh⟩
      · obtain ⟨present,apart⟩ := ih later
        exact ⟨List.mem_cons_of_mem _ present,fun taken => apart (List.mem_cons_of_mem _ taken)⟩

theorem firsts_nodup (name : α → String) (taken : List String) (items : List α) : ((firsts name taken items).map name).Nodup := by
  induction items generalizing taken with
  | nil => exact .nil
  | cons item rest ih =>
    unfold firsts
    split
    · exact ih taken
    · rw [List.map_cons,List.nodup_cons]
      refine ⟨?_,ih _⟩
      intro again
      obtain ⟨other,member,same⟩ := List.mem_map.mp again
      exact (mem_firsts member).2 (by rw [same]; exact List.mem_cons_self)

end

theorem mem_firsts_lookup {β : Type} {taken : List String} {items : List (String × β)} {name : String} {content : β} :
    (name,content) ∈ firsts Prod.fst taken items ↔ name ∉ taken ∧ items.lookup name = some content := by
  induction items generalizing taken with
  | nil => simp [firsts]
  | cons item rest ih =>
    obtain ⟨known,first⟩ := item
    unfold firsts
    by_cases same : name = known
    · subst same
      by_cases old : name ∈ taken
      · simp [old,ih]
      · have later : (name,content) ∉ firsts Prod.fst (name :: taken) rest := by
          intro member
          exact (mem_firsts member).2 List.mem_cons_self
        simp [old,later,eq_comm]
    · have different : (name == known) = false := by simpa using same
      by_cases old : known ∈ taken
      · simp [old,ih,List.lookup_cons,different]
      · simp [old,ih,List.lookup_cons,different,same]

end DeferredAttributes
