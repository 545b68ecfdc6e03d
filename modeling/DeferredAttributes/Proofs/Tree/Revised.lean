import DeferredAttributes.Proofs.Tree.Typed

-- A tree in which some of the values that may change have been replaced. Which keys have a
-- value, of which type, and which of the values may change is as before.
namespace DeferredAttributes.Tree

def Varies (t : Tree) (key : Key) : Prop := ∃ value, t.stored? key = some (value,false)

structure Revised (t t' : Tree) : Prop where
  shape : t.SameShape t'
  typed : t.Typed → t'.Typed
  flags : ∀ key, (t'.stored? key).map Prod.snd = (t.stored? key).map Prod.snd
  fixed : ∀ key, ¬t.Varies key → t'.slot? key = t.slot? key

theorem varies_flag {t : Tree} {key : Key} : t.Varies key ↔ (t.stored? key).map Prod.snd = some false := by
  rw [Option.map_eq_some_iff]
  constructor
  · rintro ⟨value,stored⟩
    exact ⟨_,stored,rfl⟩
  · rintro ⟨⟨value,_⟩,stored,rfl⟩
    exact ⟨value,stored⟩

namespace Revised
variable {t t' t'' : Tree} {key : Key}

theorem refl (t : Tree) : t.Revised t := ⟨.refl t,id,fun _ => rfl,fun _ _ => rfl⟩

theorem slots (shape : t.SameShape t') (same : ∀ key, t'.slot? key = t.slot? key) : t.Revised t' := by
  refine ⟨shape,fun typed => typed.slots same,?_,fun key _ => same key⟩
  intro key
  rw [stored_slot,stored_slot,same]

section
variable (revised : t.Revised t')
include revised

theorem varies (key : Key) : t'.Varies key ↔ t.Varies key := by
  rw [varies_flag,varies_flag,revised.flags]

theorem isSome (key : Key) : (t'.stored? key).isSome = (t.stored? key).isSome := by
  have flags := congrArg Option.isSome (revised.flags key)
  rwa [Option.isSome_map,Option.isSome_map] at flags

theorem fills : t.Fills t' := ⟨revised.shape,fun key has => (revised.isSome key).trans has⟩

theorem trans (later : t'.Revised t'') : t.Revised t'' := by
  refine ⟨revised.shape.trans later.shape,later.typed ∘ revised.typed,
    fun key => (later.flags key).trans (revised.flags key),?_⟩
  intro key steady
  have still : ¬t'.Varies key := fun varies => steady ((revised.varies key).mp varies)
  exact (later.fixed key still).trans (revised.fixed key steady)

theorem marks (key : Key) : (t'.slot? key).map (fun entry => (entry.type,entry.value.isSome,entry.deterministic)) =
    (t.slot? key).map fun entry => (entry.type,entry.value.isSome,entry.deterministic) := by
  by_cases varies : t.Varies key
  · obtain ⟨value',stored'⟩ := (revised.varies key).mpr varies
    obtain ⟨value,stored⟩ := varies
    obtain ⟨entry,found,_⟩ := Option.bind_eq_some_iff.mp stored
    obtain ⟨entry',found',_⟩ := Option.bind_eq_some_iff.mp stored'
    have types : (t'.slot? key).map Entry.type = (t.slot? key).map Entry.type :=
      (revised.shape.nodes key.node).types key.name
    change t.slot? key = some entry at found
    change t'.slot? key = some entry' at found'
    rw [found,found'] at types ⊢
    obtain ⟨has,flag⟩ := slot_solved found stored
    obtain ⟨has',flag'⟩ := slot_solved found' stored'
    simp only [Option.map_some,Option.some.injEq] at types ⊢
    rw [types,has,has',flag,flag']
    rfl
  · rw [revised.fixed key varies]

end

theorem put {entry : Entry} {value : Value} (found : t.slot? key = some entry) (varies : t.Varies key)
    (fits : value.type? = some entry.type) : t.Revised (t.put key entry value false) := by
  refine ⟨shape_put found value false,?_,?_,?_⟩
  · intro typed other entry' value' found' has
    rw [slot_put found] at found'
    split at found'
    · cases found'
      cases has
      exact fits
    · exact typed other entry' value' found' has
  · intro other
    rw [stored_put found]
    split
    · rename_i same
      rw [same,varies_flag.mp varies]
      rfl
    · rfl
  · intro other steady
    rw [slot_put found,if_neg]
    rintro rfl
    exact steady varies

end Revised

structure Reflagged (t t' : Tree) : Prop where
  size : t'.nodes.size = t.nodes.size
  node : ∀ i, t'.node i = { t.node i with valid := (t'.node i).valid }

namespace Reflagged
variable {t t' : Tree} (reflagged : t.Reflagged t')
include reflagged

theorem slot (key : Key) : t'.slot? key = t.slot? key := by
  unfold slot?
  rw [reflagged.node]

theorem stored (key : Key) : t'.stored? key = t.stored? key := by
  rw [stored_slot,stored_slot,reflagged.slot]

theorem shape : t.SameShape t' := by
  refine ⟨reflagged.size,?_⟩
  intro i
  rw [reflagged.node i]
  exact ⟨rfl,rfl,rfl,rfl,rfl,fun _ => rfl⟩

theorem revised : t.Revised t' := .slots reflagged.shape reflagged.slot

end Reflagged
end DeferredAttributes.Tree
