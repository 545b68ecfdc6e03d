import DeferredAttributes.Proofs.Tree.Shape

-- A path as its segments. Apart from the text that an error shows, a path leads where its
-- segments lead.
namespace DeferredAttributes

def LookupError.about (path : String) : LookupError → LookupError
  | .unknown _ => .unknown path
  | .invalidPath _ => .invalidPath path
  | error => error

namespace Tree

def stripped (path : String) : List Char :=
  match path.toList with
  | '@' :: rest => rest
  | all => all

def split (text : List Char) : List String := (pieces text).map String.ofList

-- All segments but the last say where to go. The last is the name of the key.
def segments (path : String) : List String := split (stripped path)

def lastSegment (path : String) : String := (segments path).getLast?.getD ""

def Reserved (segment : String) : Prop := segment = "" ∨ segment = ".." ∨ segment = "."

instance (segment : String) : Decidable (Reserved segment) := inferInstanceAs (Decidable (_ ∨ _))

def navigate (t : Tree) (path : String) (i : Nat) (navigation : List String) : Except LookupError Nat :=
  let absolute := navigation.head? == some ""
  t.walk path (!absolute) (if absolute then 0 else i) (navigation.filter (· ≠ ""))

def seek (t : Tree) (path : String) (i : Nat) (navigation : List String) (name : String) : Except LookupError Key :=
  if Reserved name then .error (.invalidPath path) else
  match t.navigate path i navigation with
  | .error error => .error error
  | .ok start =>
    match t.owner? start name with
    | some owner => .ok ⟨owner,name⟩
    | none => .error (.unknown path)

section
variable {text one two : List Char}

theorem pieces_plain (plain : '/' ∉ text) : pieces text = [text] := by
  induction text with
  | nil => rfl
  | cons c rest ih =>
    obtain ⟨first,later⟩ := not_or.mp fun member => plain (List.mem_cons.mpr member)
    rw [pieces,if_neg (Ne.symm first),ih later]

theorem pieces_some (text : List Char) : pieces text ≠ [] := by
  cases text with
  | nil => exact List.cons_ne_nil _ _
  | cons c rest =>
    unfold pieces
    split
    · exact List.cons_ne_nil _ _
    · split <;> exact List.cons_ne_nil _ _

theorem pieces_slash (one two : List Char) : pieces (one ++ '/' :: two) = pieces one ++ pieces two := by
  induction one with
  | nil => simp [pieces]
  | cons c rest ih =>
    rw [List.cons_append,pieces,pieces,ih]
    split
    · rfl
    · obtain ⟨piece,others,same⟩ := List.exists_cons_of_ne_nil (pieces_some rest)
      rw [same]
      rfl

theorem split_plain (plain : '/' ∉ text) : split text = [String.ofList text] := by
  rw [split,pieces_plain plain]
  rfl

theorem split_slash (one two : List Char) : split (one ++ '/' :: two) = split one ++ split two := by
  rw [split,pieces_slash,List.map_append]
  rfl

theorem mem_split {c : Char} (member : c ∈ text) : c = '/' ∨ ∃ segment ∈ split text, c ∈ segment.toList := by
  induction text with
  | nil => cases member
  | cons first rest ih =>
    unfold split pieces
    split
    · rename_i slash
      rcases List.mem_cons.mp member with here | later
      · exact .inl (here.trans slash)
      · rcases ih later with slash | ⟨segment,known,inside⟩
        · exact .inl slash
        · exact .inr ⟨segment,List.mem_cons_of_mem _ known,inside⟩
    · obtain ⟨piece,others,same⟩ := List.exists_cons_of_ne_nil (pieces_some rest)
      rw [same]
      rcases List.mem_cons.mp member with here | later
      · exact .inr ⟨_,List.mem_cons_self,by simp [here]⟩
      · rcases ih later with slash | ⟨segment,known,inside⟩
        · exact .inl slash
        · rw [split,same] at known
          rcases List.mem_cons.mp known with rfl | behind
          · exact .inr ⟨_,List.mem_cons_self,by simpa using .inr (by simpa using inside)⟩
          · exact .inr ⟨segment,List.mem_cons_of_mem _ behind,inside⟩

theorem split_intercalate {names : List String} (some : names ≠ []) (clean : ∀ name ∈ names, '/' ∉ name.toList) :
    split ("/".intercalate names).toList = names := by
  induction names with
  | nil => exact absurd rfl some
  | cons name rest ih =>
    have own := split_plain (clean name List.mem_cons_self)
    rw [String.ofList_toList] at own
    cases rest with
    | nil => rw [String.intercalate_singleton,own]
    | cons next others =>
      have later := ih (List.cons_ne_nil _ _) fun other member => clean other (List.mem_cons_of_mem _ member)
      have joined : "/".intercalate (name :: next :: others) = name ++ "/" ++ "/".intercalate (next :: others) := by
        rw [← List.singleton_append,String.intercalate_append_of_ne_nil (List.cons_ne_nil _ _) (List.cons_ne_nil _ _),
          String.intercalate_singleton]
      rw [joined,String.toList_append,String.toList_append,List.append_assoc]
      change split (name.toList ++ '/' :: ("/".intercalate (next :: others)).toList) = _
      rw [split_slash,own,later]
      rfl

end

section
variable {path before after : String}

theorem stripped_plain (plain : path.toList.head? ≠ some '@') : stripped path = path.toList := by
  unfold stripped
  split
  · rename_i rest same
    rw [same] at plain
    exact absurd rfl plain
  · rfl

theorem stripped_sign (rest : String) : stripped ("@" ++ rest) = rest.toList := by
  unfold stripped
  rw [String.toList_append]
  rfl

theorem stripped_slash (before after : String) :
    stripped (before ++ "/" ++ after) = stripped before ++ '/' :: after.toList := by
  unfold stripped
  rw [String.toList_append,String.toList_append,List.append_assoc]
  change (match before.toList ++ '/' :: after.toList with | '@' :: rest => rest | all => all) = _
  cases before.toList with
  | nil => rfl
  | cons c rest =>
    by_cases sign : c = '@'
    · subst sign
      rfl
    · split
      · rename_i same
        exact absurd (List.cons.inj same).1 sign
      · split
        · rename_i same
          exact absurd (List.cons.inj same).1 sign
        · rfl

theorem segments_slash (before after : String) :
    segments (before ++ "/" ++ after) = segments before ++ split after.toList := by
  rw [segments,stripped_slash,split_slash]
  rfl

theorem segments_last (path : String) : segments path = (segments path).dropLast ++ [lastSegment path] := by
  have some : segments path ≠ [] := by simpa [segments,split] using pieces_some (stripped path)
  rw [lastSegment,List.getLast?_eq_some_getLast some,Option.getD_some,List.dropLast_concat_getLast]

end

section
variable {t : Tree} {i : Nat} {path : String} {first : Bool}

theorem locate_segments (t : Tree) (i : Nat) (path : String) :
    t.locate i path = t.seek path i (segments path).dropLast (lastSegment path) := by
  have name : String.ofList ((pieces (stripped path)).getLast?.getD []) = lastSegment path := by
    unfold lastSegment segments split
    rw [List.getLast?_map]
    cases (pieces (stripped path)).getLast? <;> rfl
  have absolute : ∀ navigation : List (List Char),
      (navigation.head? == some []) = ((navigation.map String.ofList).head? == some "") := by
    intro navigation
    cases navigation with
    | nil => rfl
    | cons piece rest => cases piece <;> simp
  have named : ∀ navigation : List (List Char), (navigation.filter fun piece => !piece.isEmpty).map String.ofList =
      (navigation.map String.ofList).filter (· ≠ "") := by
    intro navigation
    rw [List.filter_map]
    congr 2
    funext piece
    cases piece <;> simp
  unfold locate
  extract_lets text parts key navigation starts way
  have last : key = lastSegment path := name
  have starting : starts = (((pieces (stripped path)).dropLast.map String.ofList).head? == some "") := absolute _
  have going : way = ((pieces (stripped path)).dropLast.map String.ofList).filter (· ≠ "") := named _
  rw [last,starting,going,List.map_dropLast]
  rfl

theorem locate_seek {navigation : List String} {name : String} (split : segments path = navigation ++ [name]) :
    t.locate i path = t.seek path i navigation name := by
  rw [locate_segments,lastSegment,split,List.dropLast_concat,List.getLast?_concat,Option.getD_some]

theorem step_about (t : Tree) (path other : String) (first : Bool) (i : Nat) (segment : String) :
    t.step other first i segment = (t.step path first i segment).mapError (.about other) := by
  unfold step
  split
  · rfl
  · split
    · split <;> rfl
    · dsimp only
      split <;> rfl

theorem walk_about (t : Tree) (path other : String) (first : Bool) (i : Nat) (segments : List String) :
    t.walk other first i segments = (t.walk path first i segments).mapError (.about other) := by
  induction segments generalizing first i with
  | nil => rfl
  | cons segment rest ih =>
    rw [walk,walk,step_about t path other]
    cases t.step path first i segment with
    | error error => rfl
    | ok next => exact ih false next

theorem seek_about (t : Tree) (path other : String) (i : Nat) (navigation : List String) (name : String) :
    t.seek other i navigation name = (t.seek path i navigation name).mapError (.about other) := by
  unfold seek navigate
  dsimp only
  rw [walk_about t path other]
  split
  · rfl
  · cases t.walk path (!(navigation.head? == some "")) (if navigation.head? == some "" then 0 else i)
        (navigation.filter (· ≠ "")) with
    | error error => rfl
    | ok start =>
      change (match t.owner? start name with | some owner => _ | none => _) = _
      dsimp only
      split <;> rfl

theorem walk_append (t : Tree) (path : String) (first : Bool) (i : Nat) (one two : List String) :
    t.walk path first i (one ++ two) = match t.walk path first i one with
      | .ok next => t.walk path (first && one.isEmpty) next two
      | .error error => .error error := by
  induction one generalizing first i with
  | nil => simp [walk]
  | cons segment rest ih =>
    rw [List.cons_append,walk,walk]
    cases t.step path first i segment with
    | error error => rfl
    | ok next =>
      dsimp only
      rw [ih]
      simp

end
end Tree
end DeferredAttributes
