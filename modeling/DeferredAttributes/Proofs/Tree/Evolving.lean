import DeferredAttributes.Proofs.Block.Paths
import DeferredAttributes.Proofs.Table
import DeferredAttributes.Proofs.Tree.Typed

-- How a tree changes in the course of time: new nodes, declarations, writes, flags. No promise
-- is made about what is written, except that the tree accepts it.
namespace DeferredAttributes

inductive Node.Alters : Node → Nat → Node → Prop where
  | same {n n' : Node} (entries : n'.entries = n.entries) (version : n'.version = n.version) : Alters n 0 n'
  | declared {n n' : Node} {name : String} (type : ValueType) (new : n.entries.find? name = none)
      (entries : n'.entries = n.entries.insert name (.blank type)) (version : n'.version = n.version) : Alters n 0 n'
  | written {n n' : Node} {name : String} {entry : Entry} {value : Value} (deterministic : Bool)
      (found : n.entries.find? name = some entry) (typed : value.type? = some entry.type)
      (entries : n'.entries = n.entries.insert name
        { entry with value := some value, deterministic := deterministic, modified := n.version + 1 })
      (version : n'.version = n.version + 1) : Alters n 1 n'

namespace Tree

inductive Evolves : Tree → List Key → Tree → Prop where
  | same {t : Tree} : Evolves t [] t
  | child {t t' : Tree} {parent id : Nat} {name : String} {origin : Origin} (bound : parent < t.nodes.size)
      (added : t.addChild parent name origin = .ok (id,t')) : Evolves t [] t'
  | declared {t : Tree} (id : Nat) (name : String) (type : ValueType) : Evolves t [] (t.declare id name type)
  | written {t t' : Tree} {key : Key} {value : Value} {deterministic : Bool}
      (written : t.write key value deterministic = .ok t') : Evolves t [key] t'
  | flagged {t : Tree} (id : Nat) (valid : Bool) : Evolves t [] (t.setValid id valid)
  | trans {t m t' : Tree} {one two : List Key} (first : Evolves t one m) (second : Evolves m two t') :
      Evolves t (one ++ two) t'

section
variable {t t' : Tree} {writes : List Key}

theorem addChild_ok {parent id : Nat} {name : String} {origin : Origin}
    (added : t.addChild parent name origin = .ok (id,t')) :
    (t.node parent).children.find? name = none ∧ t' = t.withChild parent name origin := by
  rcases t.addChild_withChild parent name origin with ⟨_,_,_,failed⟩ | ⟨fresh,grown⟩
  · rw [failed] at added
    cases added
  · rw [grown] at added
    cases added
    exact ⟨fresh,rfl⟩

theorem Evolves.withChild (evolves : t.Evolves writes t') (parent : Nat) (name : String) (origin : Origin)
    (bound : parent < t'.nodes.size) (fresh : (t'.node parent).children.find? name = none) :
    t.Evolves writes (t'.withChild parent name origin) := by
  rcases t'.addChild_withChild parent name origin with ⟨existing,known,_⟩ | ⟨_,grown⟩
  · rw [fresh] at known
    cases known
  · have more := evolves.trans (.child bound grown)
    rwa [List.append_nil] at more

theorem Evolves.nodes (holds : Node → Nat → Node → Prop) (alters : ∀ {n k n'}, n.Alters k n' → holds n k n')
    (trans : ∀ {a j b k c}, holds a j b → holds b k c → holds a (j + k) c) (evolves : t.Evolves writes t') (i : Nat) :
    holds (t.node i) (writes.countP fun key => key.node = i) (t'.node i) := by
  induction evolves with
  | same => exact alters (.same rfl rfl)
  | @child t t' parent id name origin bound added =>
    obtain ⟨_,rfl⟩ := addChild_ok added
    apply alters
    rw [node_withChild bound]
    split
    · rename_i new
      rw [new,node_outside (Nat.le_refl _)]
      exact .same rfl rfl
    · split
      · rename_i here
        rw [here]
        exact .same rfl rfl
      · exact .same rfl rfl
  | @declared t id name type =>
    apply alters
    unfold declare
    rw [node_modify]
    split
    · cases known : (t.node i).entries.contains name with
      | true => exact .same rfl rfl
      | false => exact .declared type (Option.not_isSome_iff_eq_none.mp (by simpa [Table.contains] using known)) rfl rfl
    · exact .same rfl rfl
  | @written t t' key value deterministic written =>
    obtain ⟨entry,found,typed,rfl⟩ := write_ok written
    apply alters
    by_cases here : key.node = i
    · subst here
      rw [node_put_self found]
      simpa using .written deterministic found typed rfl rfl
    · rw [node_put_other found (Ne.symm here)]
      simpa [here] using .same rfl rfl
  | @flagged t id valid =>
    apply alters
    unfold setValid
    rw [node_modify]
    split <;> exact .same rfl rfl
  | trans first second one two =>
    rw [List.countP_append]
    exact trans one two

end
end Tree
end DeferredAttributes
