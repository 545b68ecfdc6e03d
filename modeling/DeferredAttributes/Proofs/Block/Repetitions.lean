import Mathlib.Data.List.Perm.Basic
import DeferredAttributes.Proofs.Block.Preorder

-- What is left over where only the first item of a name counts: the items that have the name of an
-- earlier one.
namespace DeferredAttributes

def repetitions {α : Type} (name : α → String) (items : List α) : List (α × α) :=
  items.zipIdx.filterMap fun (item,k) =>
    ((items.take k).find? fun other => name other == name item).map fun first => (item,first)

def repetitionsFrom {α : Type} (name : α → String) (seen : List α) : List α → List (α × α)
  | [] => []
  | item :: rest =>
    match seen.find? fun other => name other == name item with
    | some first => (item,first) :: repetitionsFrom name seen rest
    | none => repetitionsFrom name (item :: seen) rest

section
variable {α : Type} {name : α → String} {seen : List α} {n : String}

theorem find_name_none : (seen.find? fun other => name other == n) = none ↔ n ∉ seen.map name := by
  simp [List.find?_eq_none]

theorem find_name_some {first : α} (known : (seen.find? fun other => name other == n) = some first) :
    n ∈ seen.map name ∧ name first = n := by
  have same := List.find?_some known
  rw [beq_iff_eq] at same
  exact ⟨List.mem_map.mpr ⟨first,List.mem_of_find?_eq_some known,same⟩,same⟩

theorem repetitionsFrom_behind (seen before items : List α)
    (same : ∀ n, (seen.find? fun other => name other == n) = before.find? fun other => name other == n) :
    repetitionsFrom name seen items = (items.zipIdx before.length).filterMap fun (item,k) =>
      (((before ++ items).take k).find? fun other => name other == name item).map fun first => (item,first) := by
  induction items generalizing seen before with
  | nil => rfl
  | cons item rest ih =>
    have own : (before ++ item :: rest).take before.length = before := List.take_left
    have next : before ++ item :: rest = (before ++ [item]) ++ rest := by simp
    have last : ∀ n, ((before ++ [item]).find? fun other => name other == n) =
        (before.find? fun other => name other == n).or (if name item == n then some item else none) := by
      intro n
      rw [List.find?_append,List.find?_singleton]
    unfold repetitionsFrom
    rw [List.zipIdx_cons,List.filterMap_cons]
    dsimp only
    rw [own,same,next]
    cases found : before.find? fun other => name other == name item with
    | some first =>
      have later := ih seen (before ++ [item]) fun n => by
        rw [same,last]
        by_cases again : name item = n
        · rw [← again,found]
          rfl
        · simp [again]
      rw [List.length_append] at later
      exact congrArg ((item,first) :: ·) later
    | none =>
      have later := ih (item :: seen) (before ++ [item]) fun n => by
        rw [List.find?_cons,same,last]
        by_cases again : name item = n
        · rw [← again,found]
          simp
        · rw [beq_false_of_ne again]
          simp
      rw [List.length_append] at later
      exact later

theorem repetitions_from (name : α → String) (items : List α) : repetitions name items = repetitionsFrom name [] items :=
  (repetitionsFrom_behind [] [] items fun _ => rfl).symm

theorem firsts_repetitions (seen items : List α) :
    (firsts name (seen.map name) items ++ (repetitionsFrom name seen items).map Prod.fst).Perm items := by
  induction items generalizing seen with
  | nil => exact .nil
  | cons item rest ih =>
    unfold firsts repetitionsFrom
    cases known : seen.find? fun other => name other == name item with
    | none =>
      rw [if_neg (find_name_none.mp known)]
      exact (ih (item :: seen)).cons item
    | some first =>
      rw [if_pos (find_name_some known).1]
      exact List.perm_middle.trans ((ih seen).cons item)

theorem repetitionsFrom_nil (items : List α) :
    repetitionsFrom name seen items = [] ↔ (items.map name).Nodup ∧ ∀ n ∈ items.map name, n ∉ seen.map name := by
  induction items generalizing seen with
  | nil => simp [repetitionsFrom]
  | cons item rest ih =>
    unfold repetitionsFrom
    rw [List.map_cons,List.nodup_cons,List.forall_mem_cons]
    cases known : seen.find? fun other => name other == name item with
    | none =>
      have new := find_name_none.mp known
      dsimp only
      rw [ih,List.map_cons]
      constructor
      · rintro ⟨distinct,apart⟩
        exact ⟨⟨fun again => apart _ again List.mem_cons_self,distinct⟩,new,
          fun n member old => apart n member (List.mem_cons_of_mem _ old)⟩
      · rintro ⟨⟨once,distinct⟩,_,apart⟩
        refine ⟨distinct,fun n member old => ?_⟩
        rcases List.mem_cons.mp old with rfl | old
        · exact once member
        · exact apart n member old
    | some first =>
      have old := (find_name_some known).1
      exact ⟨fun impossible => (by cases impossible),fun both => absurd old both.2.1⟩

end

theorem Block.repeats_repetitions (b : Block) :
    b.Repeats ↔ repetitions Prod.fst b.attributes ≠ [] ∨ repetitions Block.name b.children ≠ [] := by
  unfold Block.Repeats
  simp only [repetitions_from,ne_eq,repetitionsFrom_nil]
  simp

end DeferredAttributes
