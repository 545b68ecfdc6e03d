import DeferredAttributes.Proofs.Tree.Segments
import DeferredAttributes.Proofs.Tree.Stored

-- Two trees that declare the same, apart from one key. Paths that do not end in its name lead to
-- the same places.
namespace DeferredAttributes.Tree

structure AlikeBut (key : Key) (t t' : Tree) : Prop where
  nodes : t.SameNodes t'
  types : ∀ other, other ≠ key → (t'.slot? other).map Entry.type = (t.slot? other).map Entry.type

namespace AlikeBut
variable {key other : Key} {t t' u u' : Tree}

theorem symm (alike : AlikeBut key t t') : AlikeBut key t' t :=
  ⟨alike.nodes.symm,fun other apart => (alike.types other apart).symm⟩

theorem shaped (alike : AlikeBut key t t') (left : t.SameShape u) (right : t'.SameShape u') : AlikeBut key u u' := by
  refine ⟨left.sameNodes.symm.trans (alike.nodes.trans right.sameNodes),?_⟩
  intro other apart
  have before := (left.nodes other.node).types other.name
  have after := (right.nodes other.node).types other.name
  exact after.trans ((alike.types other apart).trans before.symm)

variable (alike : AlikeBut key t t')
include alike

theorem declares {name : String} (apart : name ≠ key.name) (i : Nat) : t'.declares name i = t.declares name i := by
  have types := congrArg Option.isSome (alike.types ⟨i,name⟩ fun same => apart (by rw [← same]))
  rwa [Option.isSome_map,Option.isSome_map] at types

theorem owner {name : String} (apart : name ≠ key.name) (i : Nat) : t'.owner? i name = t.owner? i name := by
  unfold owner?
  rw [alike.nodes.ancestors]
  exact congrArg (fun test => (t.ancestors i).find? test) (funext (alike.declares apart))

theorem locate {path : String} (apart : lastSegment path ≠ key.name) (i : Nat) : t'.locate i path = t.locate i path := by
  simp only [locate_segments,seek,navigate,alike.nodes.walk,alike.owner apart]

theorem refusal (apart : other ≠ key) (value : Value) : t'.refusal? other value = t.refusal? other value := by
  have types := alike.types other apart
  unfold refusal?
  rw [alike.nodes.displayKey]
  cases before : t.slot? other <;> cases after : t'.slot? other <;> simp_all

end AlikeBut

theorem locate_name_eq {t : Tree} {i : Nat} {path : String} {key : Key} (found : t.locate i path = .ok key) :
    key.name = lastSegment path := by
  rw [locate_segments] at found
  unfold seek at found
  split at found
  · cases found
  · split at found
    · cases found
    · split at found
      · cases found
        rfl
      · cases found

end DeferredAttributes.Tree
