import DeferredAttributes.Proofs.Tree.Evolving

-- What every node keeps through all changes: its keys, their types, and the account of its writes
-- in version and stamps.
namespace DeferredAttributes
namespace Node

structure Versioned (n : Node) : Prop where
  names : n.entries.names.Nodup
  typed : ∀ name entry value, n.entries.find? name = some entry → entry.value = some value →
    value.type? = some entry.type
  blank : ∀ name entry, n.entries.find? name = some entry → (entry.modified = 0 ↔ entry.value = none)
  bounded : ∀ name entry, n.entries.find? name = some entry → entry.modified ≤ n.version
  distinct : ∀ name other entry entry', n.entries.find? name = some entry → n.entries.find? other = some entry' →
    entry.value.isSome = true → entry.modified = entry'.modified → name = other
  carried : 0 < n.version → ∃ name entry, n.entries.find? name = some entry ∧ entry.modified = n.version

structure Later (n n' : Node) : Prop where
  names : n.entries.names <+: n'.entries.names
  entries : ∀ name entry, n.entries.find? name = some entry → ∃ entry', n'.entries.find? name = some entry' ∧
    entry'.type = entry.type ∧ (entry.value.isSome = true → entry'.value.isSome = true)

section
variable {a b c n n' : Node} {k : Nat}

theorem Versioned.new (name : String) (parent : Option Nat) (origin : Origin) : (Node.new name parent origin).Versioned := by
  refine ⟨.nil,?_,?_,?_,?_,?_⟩ <;> simp [Node.new,Table.find?]

theorem Versioned.declared (valid : n.Versioned) {key : String} {type : ValueType} (new : n.entries.find? key = none)
    (entries : n'.entries = n.entries.insert key (.blank type)) (version : n'.version = n.version) : n'.Versioned := by
  have either : ∀ name entry, n'.entries.find? name = some entry →
      n.entries.find? name = some entry ∨ name = key ∧ entry = .blank type := by
    intro name entry found
    rw [entries,Table.find_insert] at found
    split at found
    · rename_i here
      cases found
      exact .inr ⟨here,rfl⟩
    · exact .inl found
  refine ⟨?_,?_,?_,?_,?_,?_⟩
  · rw [entries]
    exact Table.names_insert_nodup valid.names ..
  · intro name entry value found has
    rcases either name entry found with old | ⟨_,rfl⟩
    · exact valid.typed name entry value old has
    · cases has
  · intro name entry found
    rcases either name entry found with old | ⟨_,rfl⟩
    · exact valid.blank name entry old
    · exact ⟨fun _ => rfl,fun _ => rfl⟩
  · intro name entry found
    rcases either name entry found with old | ⟨_,rfl⟩
    · rw [version]
      exact valid.bounded name entry old
    · exact Nat.zero_le _
  · intro name other entry entry' found found' has same
    rcases either name entry found with old | ⟨_,rfl⟩
    · rcases either other entry' found' with old' | ⟨_,rfl⟩
      · exact valid.distinct name other entry entry' old old' has same
      · have none := (valid.blank name entry old).mp same
        simp [none] at has
    · cases has
  · intro positive
    rw [version] at positive
    obtain ⟨name,entry,found,last⟩ := valid.carried positive
    have other : name ≠ key := fun same => by simp [same,new] at found
    exact ⟨name,entry,by rw [entries,Table.find_insert,if_neg other,found],by rw [last,version]⟩

theorem Versioned.written (valid : n.Versioned) {key : String} {old new : Entry} {value : Value}
    (typed : value.type? = some old.type) (entries : n'.entries = n.entries.insert key new)
    (version : n'.version = n.version + 1) (has : new.value = some value) (type : new.type = old.type)
    (stamp : new.modified = n.version + 1) : n'.Versioned := by
  have either : ∀ name entry, n'.entries.find? name = some entry →
      n.entries.find? name = some entry ∧ entry.modified ≤ n.version ∨ name = key ∧ entry = new := by
    intro name entry found
    rw [entries,Table.find_insert] at found
    split at found
    · rename_i here
      cases found
      exact .inr ⟨here,rfl⟩
    · exact .inl ⟨found,valid.bounded name entry found⟩
  refine ⟨?_,?_,?_,?_,?_,?_⟩
  · rw [entries]
    exact Table.names_insert_nodup valid.names ..
  · intro name entry content found has'
    rcases either name entry found with ⟨old,_⟩ | ⟨_,rfl⟩
    · exact valid.typed name entry content old has'
    · cases has.symm.trans has'
      rw [typed,type]
  · intro name entry found
    rcases either name entry found with ⟨old,_⟩ | ⟨_,rfl⟩
    · exact valid.blank name entry old
    · simp [stamp,has]
  · intro name entry found
    rcases either name entry found with ⟨_,bound⟩ | ⟨_,rfl⟩ <;> omega
  · intro name other entry entry' found found' has' same
    rcases either name entry found with ⟨one,bound⟩ | ⟨here,rfl⟩
    · rcases either other entry' found' with ⟨two,_⟩ | ⟨_,rfl⟩
      · exact valid.distinct name other entry entry' one two has' same
      · omega
    · rcases either other entry' found' with ⟨_,bound⟩ | ⟨there,_⟩
      · omega
      · rw [here,there]
  · intro _
    exact ⟨key,new,by rw [entries,Table.find_insert,if_pos rfl],by rw [stamp,version]⟩

theorem Versioned.alters (valid : n.Versioned) (alters : n.Alters k n') : n'.Versioned := by
  cases alters with
  | same entries version =>
    obtain ⟨names,typed,blank,bounded,distinct,carried⟩ := valid
    constructor <;> simpa only [entries,version]
  | declared type new entries version => exact valid.declared new entries version
  | written deterministic found typed entries version => exact valid.written typed entries version rfl rfl rfl

theorem Versioned.plain (valid : n.Versioned) {name : String} {entry : Entry} {value : Value}
    (found : n.entries.find? name = some entry) (has : entry.value = some value) (fields : List (String × Value)) :
    value ≠ .object fields := by
  intro same
  have typed := valid.typed name entry value found has
  rw [same] at typed
  cases typed

theorem Alters.version (alters : n.Alters k n') : n'.version = n.version + k := by
  cases alters with
  | same entries version | declared type new entries version => exact version
  | written deterministic found typed entries version => exact version

theorem Later.trans (left : a.Later b) (right : b.Later c) : a.Later c := by
  refine ⟨left.names.trans right.names,?_⟩
  intro name entry found
  obtain ⟨middle,known,type,kept⟩ := left.entries name entry found
  obtain ⟨last,known',type',kept'⟩ := right.entries name middle known
  exact ⟨last,known',type'.trans type,fun has => kept' (kept has)⟩

theorem Alters.later (alters : n.Alters k n') : n.Later n' := by
  cases alters with
  | same entries version => exact ⟨entries ▸ List.prefix_rfl,fun name entry found => ⟨entry,entries ▸ found,rfl,id⟩⟩
  | @declared _ key type new entries version =>
    refine ⟨?_,?_⟩
    · rw [entries,Table.names_insert]
      split <;> simp
    · intro name entry found
      have other : name ≠ key := fun same => by simp [same,new] at found
      exact ⟨entry,by rw [entries,Table.find_insert,if_neg other,found],rfl,id⟩
  | @written _ key entry value deterministic found type entries version =>
    refine ⟨?_,?_⟩
    · rw [entries,Table.names_insert]
      split <;> simp
    · intro name old known
      rw [entries,Table.find_insert]
      by_cases here : name = key
      · subst here
        cases found.symm.trans known
        simp
      · simp [here,known]

end
end Node

namespace Tree
variable {t t' : Tree} {writes : List Key} (evolves : t.Evolves writes t')
include evolves

theorem Evolves.versioned {i : Nat} (valid : (t.node i).Versioned) : (t'.node i).Versioned := by
  have kept : (t.node i).Versioned → (t'.node i).Versioned :=
    evolves.nodes (fun n _ n' => n.Versioned → n'.Versioned) (fun alters valid => valid.alters alters)
      (fun left right valid => right (left valid)) i
  exact kept valid

theorem Evolves.later (i : Nat) : (t.node i).Later (t'.node i) :=
  evolves.nodes (fun n _ n' => n.Later n') Node.Alters.later Node.Later.trans i

theorem Evolves.version (i : Nat) : (t'.node i).version = (t.node i).version + writes.countP fun key => key.node = i := by
  refine evolves.nodes (fun n k n' => n'.version = n.version + k) Node.Alters.version ?_ i
  intro a j b k c left right
  omega

end Tree
end DeferredAttributes
