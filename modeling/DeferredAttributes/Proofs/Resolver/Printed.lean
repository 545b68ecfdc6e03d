import DeferredAttributes.Proofs.Expression.Continuing
import DeferredAttributes.Proofs.Resolver.Reads
import DeferredAttributes.Proofs.Tree.Arena
import DeferredAttributes.Proofs.Tree.Segments
import Mathlib.Data.List.TakeWhile

-- The path that messages show for a key leads back to the key, from whatever node it is read.
namespace DeferredAttributes
open Expression Text Decimal

def Word (name : String) : Prop := name ≠ "" ∧ ∀ c ∈ name.toList, isNameChar c = true

instance (name : String) : Decidable (Word name) :=
  decidable_of_iff (name ≠ "" ∧ name.toList.all isNameChar = true) (and_congr_right fun _ => List.all_eq_true)

theorem Word.plain {name : String} (word : Word name) : '/' ∉ name.toList :=
  fun member => absurd (word.2 '/' member) (by decide)

theorem Word.named {name : String} (word : Word name) : ¬Tree.Reserved name := by
  rintro (empty | up | here)
  · exact word.1 empty
  · subst up
    exact absurd (word.2 '.' (by decide)) (by decide)
  · subst here
    exact absurd (word.2 '.' (by decide)) (by decide)

namespace Tree

structure Worded (t : Tree) : Prop where
  names : ∀ i, 0 < i → i < t.nodes.size → Word (t.node i).name
  keys : ∀ key : Key, t.declares key.name key.node = true → Word key.name

section
variable {t : Tree} {path : String} {i : Nat}

theorem Worded.above (worded : t.Worded) (rooted : t.Rooted) (bound : i < t.nodes.size) : ∀ name ∈ t.names i, Word name := by
  induction i using Nat.strongRecOn with
  | ind i ih =>
    rcases Nat.eq_zero_or_pos i with rfl | below
    · rw [rooted.names_root]
      exact fun name member => (by cases member)
    · obtain ⟨parent,older,_,names⟩ := rooted.names_below below bound
      rw [names]
      intro name member
      rcases List.mem_cons.mp member with rfl | above
      · exact worded.names i below bound
      · exact ih parent older (by omega) name above

theorem Rooted.walk_names (rooted : t.Rooted) (worded : t.Worded) (bound : i < t.nodes.size) :
    t.walk path false 0 (t.names i).reverse = .ok i := by
  induction i using Nat.strongRecOn with
  | ind i ih =>
    rcases Nat.eq_zero_or_pos i with rfl | below
    · rw [rooted.names_root]
      rfl
    · obtain ⟨parent,older,known,names⟩ := rooted.names_below below bound
      obtain ⟨_,others⟩ := not_or.mp (worded.names i below bound).named
      obtain ⟨up,here⟩ := not_or.mp others
      have down : t.step path false parent (t.node i).name = .ok i := by
        rw [step,if_neg here,if_neg up]
        simp [known]
      rw [names,List.reverse_cons,walk_append,ih parent older (by omega)]
      simp only [Bool.false_and,walk,down]

end

section
variable {t : Tree} {key : Key} (rooted : t.Rooted) (worded : t.Worded) (declared : t.declares key.name key.node = true)
include rooted worded declared

theorem printed_segments : key.node < t.nodes.size ∧
    split (t.displayKey key).toList = "" :: ((t.names key.node).reverse ++ [key.name]) ∧
      ∀ name ∈ (t.names key.node).reverse ++ [key.name], Word name := by
  have bound : key.node < t.nodes.size := by
    unfold declares Table.contains at declared
    obtain ⟨entry,found⟩ := Option.isSome_iff_exists.mp declared
    exact lt_size_of_find found
  have words : ∀ name ∈ (t.names key.node).reverse ++ [key.name], Word name := by
    intro name member
    rcases List.mem_append.mp member with above | own
    · exact worded.above rooted bound name (List.mem_reverse.mp above)
    · rw [List.mem_singleton.mp own]
      exact worded.keys key declared
  refine ⟨bound,?_,words⟩
  rw [rooted.displayKey_names bound,String.toList_append]
  change split ([] ++ '/' :: ("/".intercalate ((t.names key.node).reverse ++ [key.name])).toList) = _
  rw [split_slash,split_intercalate (by simp) fun name member => (words name member).plain]
  rfl

theorem printed_located (i : Nat) : t.locate i ("@" ++ t.displayKey key) = .ok key := by
  obtain ⟨bound,segments,words⟩ := printed_segments rooted worded declared
  have parts : Tree.segments ("@" ++ t.displayKey key) = ("" :: (t.names key.node).reverse) ++ [key.name] := by
    rw [Tree.segments,stripped_sign,segments]
    rfl
  have way : ((t.names key.node).reverse).filter (· ≠ "") = (t.names key.node).reverse := by
    rw [List.filter_eq_self]
    intro name member
    simpa using (words name (List.mem_append_left _ member)).1
  rw [locate_seek parts,seek,if_neg (worded.keys key declared).named,navigate]
  simp only [List.head?_cons,BEq.rfl,Bool.not_true,if_true]
  rw [List.filter_cons_of_neg (by simp),way,rooted.walk_names worded bound]
  dsimp only
  rw [owner_self declared]

end
end Tree

theorem tokens_path {rest : List Char} (some : rest ≠ []) (plain : ∀ c ∈ rest, c = '/' ∨ isNameChar c = true) :
    tokens (String.ofList ('@' :: rest)) = [.identifier (String.ofList ('@' :: rest))] ∧
      Tokenizes (String.ofList ('@' :: rest)) := by
  have whole : identifierRest '@' rest = rest := by
    unfold identifierRest
    rw [List.takeWhile_eq_self_iff]
    intro c member
    rcases plain c member with slash | word
    · simp [slash]
    · simp [word]
  have length : (('@' :: rest).length == 1) = false := by
    simpa using some
  have next : (Cursor.start ('@' :: rest)).next =
      (.ok (.some (.identifier (String.ofList ('@' :: rest)))),⟨[],0 + bytes ('@' :: rest)⟩) := by
    unfold Cursor.start Cursor.next
    rw [Cursor.skipBlanks_token (by decide)]
    have sign : isDigit '@' = false ∧ ('@' == '(') = false ∧ ('@' == ')') = false ∧ Expression.isLetter '@' = false := by decide
    obtain ⟨digit,opening,closing,letter⟩ := sign
    dsimp only
    simp only [lexeme,digit,opening,closing,letter,whole,length,Bool.false_or,Bool.false_and,BEq.rfl,Bool.true_or]
    simp [Cursor.advance]
  unfold tokens Tokenizes
  rw [String.toList_ofList,Cursor.lexed_token next,Cursor.lexed_end (d := ⟨[],_⟩) rfl]
  exact ⟨rfl,_,rfl⟩

theorem evaluate_identifier {σ : Type} {text : String} (alone : tokens text = [.identifier text]) (whole : Tokenizes text)
    (keyword : text ≠ "true" ∧ text ≠ "false") (source : Source σ) (s : σ) :
    evaluate source text s = match source text s with
      | (.ok x,s) => (.ok x,s)
      | (.error error,s) => (.error (.lookup text error),s) := by
  have derived : Derives 0 1 (tokens text) (.name text) := by
    have single := (Derives.identifier text).lower (Nat.le_refl 1) (by decide) (Nat.le_refl 6)
    rw [Expr.ofIdentifier,if_neg keyword.1,if_neg keyword.2] at single
    rwa [alone]
  unfold evaluate
  rw [derived.parse (Nat.zero_le _) whole]
  rfl

namespace Tree
variable {t : Tree} {key : Key}

theorem printed_spelled (t : Tree) (key : Key) :
    "@" ++ t.displayKey key = String.ofList ('@' :: (t.displayKey key).toList) := by
  rw [← String.toList_inj,String.toList_ofList,String.toList_append]
  rfl

theorem printed_keyword (t : Tree) (key : Key) :
    "@" ++ t.displayKey key ≠ "true" ∧ "@" ++ t.displayKey key ≠ "false" := by
  rw [printed_spelled]
  constructor <;> intro same <;> rw [← String.toList_inj,String.toList_ofList] at same <;> cases same

theorem printed_tokens (rooted : t.Rooted) (worded : t.Worded) (declared : t.declares key.name key.node = true) :
    tokens ("@" ++ t.displayKey key) = [.identifier ("@" ++ t.displayKey key)] ∧
      Tokenizes ("@" ++ t.displayKey key) := by
  obtain ⟨_,segments,words⟩ := printed_segments rooted worded declared
  have plain : ∀ c ∈ (t.displayKey key).toList, c = '/' ∨ isNameChar c = true := by
    intro c member
    rcases mem_split member with slash | ⟨segment,known,inside⟩
    · exact .inl slash
    · rw [segments] at known
      rcases List.mem_cons.mp known with rfl | name
      · cases inside
      · exact .inr ((words segment name).2 c inside)
  have some : (t.displayKey key).toList ≠ [] := by
    intro empty
    rw [empty] at segments
    simp [split,pieces] at segments
  rw [printed_spelled]
  exact tokens_path some plain

theorem printed_reference (rooted : t.Rooted) (worded : t.Worded) (declared : t.declares key.name key.node = true)
    (node : Nat) : t.reference node ("@" ++ t.displayKey key) = .leads key := by
  have path : ∀ rest, ("@" ++ t.displayKey key).toList ≠ '$' :: rest := by
    intro rest same
    rw [printed_spelled,String.toList_ofList] at same
    cases same
  rw [reference_path t node path,printed_located rooted worded declared node]

end Tree

-- The path of a key behind a sign is one identifier, which leads to the key from every node.
theorem printed_key {origin : Origin} {writes : List Key} {t : Tree} (evolves : (Tree.new origin).Evolves writes t)
    (worded : t.Worded) {key : Key} (declared : t.declares key.name key.node = true) :
    let text := "@" ++ t.displayKey key
    (tokens text = [.identifier text] ∧ Tokenizes text) ∧
    (∀ node, t.locate node text = .ok key) ∧
    (∀ (σ : Type) (source : Source σ) (s : σ), evaluate source text s = match source text s with
      | (.ok x,s) => (.ok x,s)
      | (.error error,s) => (.error (.lookup text error),s)) ∧
    (∀ node environment volatile, t.keysRead node (asked (tokens text)) = [key] ∧
      evaluate (Scope.lookup ⟨t,node,environment⟩) text volatile = match t.stored? key with
        | none => (.error (.lookup text (.notInitialized key)),volatile)
        | some (value,deterministic) =>
          (value.number?.elim (.error (.lookup text (.notNumeric text (Scope.typeName value)))) .ok,
            volatile || !deterministic)) ∧
    ∀ other : Key, t.declares other.name other.node = true → t.displayKey other = t.displayKey key → other = key := by
  intro text
  have rooted : t.Rooted := (evolves.arena (.new origin)).toRooted
  have located := Tree.printed_located rooted worded declared
  have leads := Tree.printed_reference rooted worded declared
  have keyword := t.printed_keyword key
  obtain ⟨alone,whole⟩ := Tree.printed_tokens rooted worded declared
  refine ⟨⟨alone,whole⟩,located,fun σ => evaluate_identifier alone whole keyword,?_,?_⟩
  · intro node environment volatile
    have own : asked (tokens text) = [text] := by
      unfold text
      rw [alone]
      simp [asked,Token.asked?,keyword]
    refine ⟨?_,?_⟩
    · rw [own,Tree.keysRead,List.filterMap_cons_some (by rw [leads node]; rfl)]
      rfl
    · rw [evaluate_identifier alone whole keyword,Scope.lookup_reference,leads node]
      dsimp only
      rcases t.stored? key with _ | ⟨value,deterministic⟩
      · rfl
      · dsimp only
        cases value.number? <;> rfl
  · intro other known same
    have there := Tree.printed_located rooted worded known 0
    rw [same,located 0] at there
    cases there
    rfl

def belfry : Tree :=
  ((((Tree.new .blank).withChild 0 "tower" .blank).withChild 1 "belfry" .blank).declare 2 "bells" .decimal).declare 0
    "bells" .decimal

theorem printed_key_belfry :
    (Tree.new .blank).Evolves [] belfry ∧ belfry.Worded ∧ belfry.declares "bells" 2 = true ∧
      belfry.displayKey ⟨2,"bells"⟩ = "/tower/belfry/bells" ∧
      belfry.locate 1 ("@" ++ belfry.displayKey ⟨2,"bells"⟩) = .ok ⟨2,"bells"⟩ := by
  have evolves : (Tree.new .blank).Evolves [] belfry := by
    have one := Tree.Evolves.same.withChild 0 "tower" .blank (t := .new .blank) (by decide +kernel) (by decide +kernel)
    have two := one.withChild 1 "belfry" .blank (by decide +kernel) (by decide +kernel)
    exact .trans (.trans two (.declared 2 "bells" .decimal)) (.declared 0 "bells" .decimal)
  have size : belfry.nodes.size = 3 := by decide +kernel
  have worded : belfry.Worded := by
    refine ⟨?_,?_⟩
    · intro i positive bound
      obtain rfl | rfl : i = 1 ∨ i = 2 := by omega
      all_goals decide +kernel
    · intro key known
      have names : ∀ node, (belfry.node node).entries.names = ["bells"] ∨ (belfry.node node).entries.names = [] := by
        intro node
        by_cases inside : node < 3
        · obtain rfl | rfl | rfl : node = 0 ∨ node = 1 ∨ node = 2 := by omega
          all_goals decide +kernel
        · rw [Tree.node_outside (by rw [size]; omega)]
          exact .inr rfl
      have member := (Table.mem_names _ _).mpr known
      rcases names key.node with one | none
      · rw [one] at member
        rw [List.mem_singleton.mp member]
        decide +kernel
      · rw [none] at member
        cases member
  have declared : belfry.declares "bells" 2 = true := by decide +kernel
  obtain ⟨_,located,_⟩ := @printed_key _ _ _ evolves worded ⟨2,"bells"⟩ declared
  exact ⟨evolves,worded,declared,by decide +kernel,located 1⟩

end DeferredAttributes
