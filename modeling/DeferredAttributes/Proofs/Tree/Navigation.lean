import DeferredAttributes.Proofs.Tree.Arena
import DeferredAttributes.Proofs.Tree.Segments
import DeferredAttributes.Proofs.Tree.Stored

-- Where a path leads, said step by step. What a path has in it that leads nowhere else changes
-- nothing.
namespace DeferredAttributes.Tree

-- One step. Only the first one looks for its name in the ancestors too.
inductive Moves (t : Tree) (first : Bool) (i : Nat) : String → Nat → Prop where
  | stays : Moves t first i "." i
  | rises {parent : Nat} (above : (t.node i).parent = some parent) : Moves t first i ".." parent
  | descends {name : String} {before after : List Nat} {start child : Nat} (plain : ¬Reserved name)
      (among : (if first then t.ancestors i else [i]) = before ++ start :: after)
      (nearer : ∀ node ∈ before, (t.node node).children.find? name = none)
      (found : (t.node start).children.find? name = some child) : Moves t first i name child

inductive Ways (t : Tree) : Bool → Nat → List String → Nat → Prop where
  | arrived {first : Bool} {i : Nat} : Ways t first i [] i
  | skipped {first : Bool} {i j : Nat} {rest : List String} (later : Ways t first i rest j) :
      Ways t first i ("" :: rest) j
  | moved {first : Bool} {i j next : Nat} {segment : String} {rest : List String}
      (moves : t.Moves first i segment next) (later : Ways t false next rest j) : Ways t first i (segment :: rest) j

-- A way that begins with an empty segment begins at the root.
inductive Navigates (t : Tree) (i : Nat) : List String → Nat → Prop where
  | absolute {rest : List String} {j : Nat} (way : t.Ways false 0 rest j) : Navigates t i ("" :: rest) j
  | relative {navigation : List String} {j : Nat} (plain : navigation.head? ≠ some "")
      (way : t.Ways true i navigation j) : Navigates t i navigation j

def Closest (t : Tree) (i : Nat) (key : Key) : Prop :=
  ∃ before after, t.ancestors i = before ++ key.node :: after ∧ t.declares key.name key.node = true ∧
    ∀ node ∈ before, t.declares key.name node = false

-- What can stand between two segments without leading anywhere else: nothing, a dot, or the way
-- to a child and back.
inductive Detour (t : Tree) (i : Nat) (navigation : List String) : String → Prop where
  | empty : Detour t i navigation ""
  | dot : Detour t i navigation "."
  | child {node child : Nat} {name : String} (reached : t.Navigates i navigation node)
      (found : (t.node node).children.find? name = some child) (plain : '/' ∉ name.toList) (named : ¬Reserved name) :
      Detour t i navigation (name ++ "/" ++ "..")

section
variable {t : Tree} {path : String} {first : Bool} {i j : Nat} {navigation : List String}

theorem Moves.some {segment : String} {next : Nat} (moves : t.Moves first i segment next) : segment ≠ "" := by
  cases moves with
  | stays | rises => decide
  | descends plain => exact fun empty => plain (.inl empty)

theorem step_ok {segment : String} {next : Nat} (some : segment ≠ "") :
    t.step path first i segment = .ok next ↔ t.Moves first i segment next := by
  constructor
  · intro stepped
    unfold step at stepped
    split at stepped
    · rename_i dot
      subst dot
      cases stepped
      exact .stays
    · split at stepped
      · rename_i up
        subst up
        split at stepped
        · rename_i above
          cases stepped
          exact .rises above
        · cases stepped
      · rename_i dot up
        dsimp only at stepped
        split at stepped
        · rename_i found
          cases stepped
          obtain ⟨before,start,after,among,here,nearer⟩ := List.findSome?_eq_some_iff.mp found
          exact .descends (not_or.mpr ⟨some,not_or.mpr ⟨up,dot⟩⟩) among nearer here
        · cases stepped
  · intro moves
    unfold step
    cases moves with
    | stays => rfl
    | rises above =>
      rw [if_neg (by decide),if_pos rfl,above]
    | descends plain among nearer found =>
      obtain ⟨_,others⟩ := not_or.mp plain
      obtain ⟨up,dot⟩ := not_or.mp others
      have known := List.findSome?_eq_some_iff.mpr ⟨_,_,_,among,found,nearer⟩
      rw [if_neg dot,if_neg up]
      dsimp only
      rw [known]

theorem walk_ok : t.walk path first i (navigation.filter (· ≠ "")) = .ok j ↔ t.Ways first i navigation j := by
  induction navigation generalizing first i with
  | nil =>
    constructor
    · intro arrived
      cases arrived
      exact .arrived
    · intro way
      cases way
      rfl
  | cons segment rest ih =>
    by_cases empty : segment = ""
    · subst empty
      rw [List.filter_cons_of_neg (by simp),ih]
      constructor
      · exact .skipped
      · intro way
        cases way with
        | skipped later => exact later
        | moved moves => exact absurd rfl moves.some
    · rw [List.filter_cons_of_pos (by simpa using empty),walk]
      constructor
      · intro walked
        cases stepped : t.step path first i segment with
        | error error =>
          rw [stepped] at walked
          cases walked
        | ok next =>
          rw [stepped] at walked
          exact .moved ((step_ok empty).mp stepped) (ih.mp walked)
      · intro way
        cases way with
        | skipped => exact absurd rfl empty
        | moved moves later =>
          rw [(step_ok empty).mpr moves]
          exact ih.mpr later

theorem navigate_ok : t.navigate path i navigation = .ok j ↔ t.Navigates i navigation j := by
  unfold navigate
  by_cases rooted : navigation.head? = some ""
  · obtain ⟨rest,rfl⟩ := List.head?_eq_some_iff.mp rooted
    simp only [rooted,BEq.rfl,Bool.not_true,if_true]
    rw [List.filter_cons_of_neg (by simp),walk_ok]
    constructor
    · exact .absolute
    · intro way
      cases way with
      | absolute way => exact way
      | relative plain => exact absurd rfl plain
  · have plain : (navigation.head? == some "") = false := by simpa using rooted
    simp only [plain,Bool.not_false,Bool.false_eq_true,if_false]
    rw [walk_ok]
    constructor
    · exact .relative rooted
    · intro way
      cases way with
      | absolute => exact absurd rfl rooted
      | relative _ way => exact way

theorem owner_closest {name : String} {owner : Nat} : t.owner? i name = some owner ↔ t.Closest i ⟨owner,name⟩ := by
  unfold owner? Closest
  rw [List.find?_eq_some_iff_append]
  constructor
  · rintro ⟨declared,before,after,split,nearer⟩
    exact ⟨before,after,split,declared,fun node member => by simpa using nearer node member⟩
  · rintro ⟨before,after,split,declared,nearer⟩
    exact ⟨declared,before,after,split,fun node member => by simpa using nearer node member⟩

theorem locate_ok {key : Key} : t.locate i path = .ok key ↔ ∃ navigation start,
    segments path = navigation ++ [key.name] ∧ ¬Reserved key.name ∧ t.Navigates i navigation start ∧
      t.Closest start key := by
  constructor
  · intro found
    have split := segments_last path
    rw [locate_segments] at found
    unfold seek at found
    split at found
    · cases found
    · rename_i plain
      cases moved : t.navigate path i (segments path).dropLast with
      | error error =>
        rw [moved] at found
        cases found
      | ok start =>
        rw [moved] at found
        dsimp only at found
        cases owned : t.owner? start (lastSegment path) with
        | none =>
          rw [owned] at found
          cases found
        | some owner =>
          rw [owned] at found
          cases found
          exact ⟨_,start,split,plain,navigate_ok.mp moved,owner_closest.mp owned⟩
  · rintro ⟨navigation,start,split,plain,moved,closest⟩
    have owned : t.owner? start key.name = some key.node := owner_closest.mpr closest
    have way : t.navigate path i navigation = .ok start := navigate_ok.mpr moved
    rw [locate_seek split,seek,if_neg plain,way]
    dsimp only
    rw [owned]

theorem navigate_append {one two : List String} (some : ∃ segment ∈ one, segment ≠ "") :
    t.navigate path i (one ++ two) = match t.navigate path i one with
      | .ok next => t.walk path false next (two.filter (· ≠ ""))
      | .error error => .error error := by
  obtain ⟨segment,member,named⟩ := some
  have begins : (one ++ two).head? = one.head? := by
    obtain ⟨head,rest,rfl⟩ := List.exists_cons_of_ne_nil (List.ne_nil_of_mem member)
    rfl
  have goes : (one.filter (· ≠ "")).isEmpty = false := by
    rw [List.isEmpty_eq_false_iff]
    exact List.ne_nil_of_mem (List.mem_filter.mpr ⟨member,by simpa using named⟩)
  have whole := t.walk_append path (!(one.head? == some "")) (if one.head? == some "" then 0 else i)
    (one.filter (· ≠ "")) (two.filter (· ≠ ""))
  rw [goes,Bool.and_false] at whole
  unfold navigate
  dsimp only
  rw [begins,List.filter_append]
  exact whole

theorem seek_skip {before idle after : List String} {name : String} (some : ∃ segment ∈ before, segment ≠ "")
    (back : ∀ next, t.navigate path i before = .ok next → t.walk path false next (idle.filter (· ≠ "")) = .ok next) :
    t.seek path i (before ++ (idle ++ after)) name = t.seek path i (before ++ after) name := by
  unfold seek
  rw [navigate_append some,navigate_append some]
  cases reached : t.navigate path i before with
  | error error => rfl
  | ok next =>
    dsimp only
    rw [List.filter_append,walk_append,back next reached]
    rfl

end

section
variable {t : Tree} {path : String} {i : Nat}

theorem Detour.back (arena : t.Arena) {navigation : List String} {inserted : String}
    (detour : t.Detour i navigation inserted) {next : Nat} (reached : t.navigate path i navigation = .ok next) :
    t.walk path false next ((split inserted.toList).filter (· ≠ "")) = .ok next := by
  cases detour with
  | empty => rfl
  | dot => rfl
  | @child node child name there found plain named =>
    have here : node = next := by
      have other : t.navigate path i navigation = .ok node := navigate_ok.mpr there
      rw [reached] at other
      cases other
      rfl
    subst here
    have member : (name,child) ∈ (t.node node).children := by
      obtain ⟨before,after,known,_⟩ := Table.insert_known found
      rw [known]
      exact List.mem_append_right _ List.mem_cons_self
    obtain ⟨_,above,_⟩ := arena.children node name child member
    have parts : split (name ++ "/" ++ "..").toList = [name,".."] := by
      rw [String.toList_append,String.toList_append,List.append_assoc]
      change split (name.toList ++ '/' :: ['.','.']) = _
      rw [split_slash,split_plain plain,String.ofList_toList]
      rfl
    obtain ⟨some,others⟩ := not_or.mp named
    have down : t.step path false node name = .ok child :=
      (step_ok some).mpr (.descends named (show [node] = [] ++ node :: [] from rfl) (by simp) found)
    have up : t.step path false child ".." = .ok node := (step_ok (by decide)).mpr (.rises above)
    have kept : ([name,".."] : List String).filter (· ≠ "") = [name,".."] := by simp [some]
    rw [parts,kept,walk,down]
    dsimp only
    rw [walk,up]
    rfl

theorem locate_detour (arena : t.Arena) {before after inserted : String} (some : ∃ segment ∈ segments before, segment ≠ "")
    (detour : t.Detour i (segments before) inserted) :
    t.locate i (before ++ "/" ++ inserted ++ "/" ++ after) =
      (t.locate i (before ++ "/" ++ after)).mapError (.about (before ++ "/" ++ inserted ++ "/" ++ after)) := by
  generalize same : before ++ "/" ++ inserted ++ "/" ++ after = longer
  have whole : segments longer = segments before ++ (split inserted.toList ++ split after.toList) := by
    rw [← same,segments_slash,segments_slash,List.append_assoc]
  obtain ⟨navigation,name,last⟩ : ∃ navigation name, split after.toList = navigation ++ [name] := by
    have some : split after.toList ≠ [] := by simpa [split] using pieces_some after.toList
    exact ⟨_,_,(List.dropLast_concat_getLast some).symm⟩
  have short : segments (before ++ "/" ++ after) = (segments before ++ navigation) ++ [name] := by
    rw [segments_slash,last,List.append_assoc]
  have long : segments longer = (segments before ++ (split inserted.toList ++ navigation)) ++ [name] := by
    rw [whole,last]
    simp only [List.append_assoc]
  rw [locate_seek long,locate_seek short,seek_skip some fun next reached => detour.back arena reached]
  exact seek_about ..

end

section
variable {t : Tree} {i : Nat} {name : String}

theorem locate_name (plain : '/' ∉ name.toList) (unsigned : name.toList.head? ≠ some '@') (named : ¬Reserved name) :
    t.locate i name = match t.owner? i name with
      | some owner => .ok ⟨owner,name⟩
      | none => .error (.unknown name) := by
  have alone : segments name = [] ++ [name] := by
    rw [segments,stripped_plain unsigned,split_plain plain,String.ofList_toList]
    rfl
  rw [locate_seek alone,seek,if_neg named]
  rfl

theorem entry_owner {owner : Nat} (closest : t.Closest i ⟨owner,name⟩) :
    t.entry? i name = t.slot? ⟨owner,name⟩ := by
  unfold entry?
  rw [owner_closest.mpr closest]
  rfl

theorem read_owner {owner : Nat} (closest : t.Closest i ⟨owner,name⟩) : t.read i name = t.read owner name := by
  obtain ⟨_,_,_,declared,_⟩ := id closest
  have own := @owner_self t ⟨owner,name⟩ declared
  unfold read
  rw [owner_closest.mpr closest,own]

theorem owner_none (nowhere : ∀ node ∈ t.ancestors i, t.declares name node = false) : t.owner? i name = none := by
  unfold owner?
  rw [List.find?_eq_none]
  exact fun node member => by simp [nowhere node member]

end

-- A path leads to the closest key of its last segment's name from where the other segments lead.
-- Detours behind a segment that leads somewhere change only the path in an error.
theorem locate_sound {origin : Origin} {writes : List Key} {t : Tree} (evolves : (Tree.new origin).Evolves writes t)
    (i : Nat) :
    (∀ path key, t.locate i path = .ok key ↔ ∃ navigation start, segments path = navigation ++ [key.name] ∧
      ¬Reserved key.name ∧ t.Navigates i navigation start ∧ t.Closest start key) ∧
    (∀ path key, t.locate i path = .ok key → t.declares key.name key.node = true ∧
      t.read key.node key.name = match t.stored? key with
        | some (value,_) => .ok value
        | none => .error (.notInitialized key)) ∧
    (∀ name, '/' ∉ name.toList → name.toList.head? ≠ some '@' → ¬Reserved name →
      (∀ owner, t.Closest i ⟨owner,name⟩ → t.locate i name = .ok ⟨owner,name⟩ ∧ t.read i name = t.read owner name ∧
        t.isInitialized i name = (t.stored? ⟨owner,name⟩).isSome ∧
        t.isDeterministic i name = (t.stored? ⟨owner,name⟩).any Prod.snd) ∧
      ((∀ node ∈ t.ancestors i, t.declares name node = false) →
        t.locate i name = .error (.unknown name) ∧ t.read i name = .error (.unknown name) ∧
          t.isInitialized i name = false ∧ t.isDeterministic i name = false)) ∧
    ∀ before inserted after, (∃ segment ∈ segments before, segment ≠ "") → t.Detour i (segments before) inserted →
      t.locate i (before ++ "/" ++ inserted ++ "/" ++ after) =
        (t.locate i (before ++ "/" ++ after)).mapError (.about (before ++ "/" ++ inserted ++ "/" ++ after)) := by
  refine ⟨fun path key => locate_ok,?_,?_,fun before inserted after => locate_detour (evolves.arena (.new origin))⟩
  · intro path key found
    have declared := locate_declares found
    exact ⟨declared,read_stored declared⟩
  · intro name plain unsigned named
    have located := locate_name (t := t) (i := i) plain unsigned named
    constructor
    · intro owner closest
      have entry := entry_owner closest
      rw [owner_closest.mpr closest] at located
      refine ⟨located,read_owner closest,?_,?_⟩
      · rw [isInitialized,entry,stored_slot]
        cases t.slot? ⟨owner,name⟩ with
        | none => rfl
        | some entry => simp
      · rw [isDeterministic,entry,stored_slot]
        rcases t.slot? ⟨owner,name⟩ with _ | ⟨_ | value,type,deterministic,modified⟩ <;> simp
    · intro nowhere
      have none := owner_none nowhere
      rw [none] at located
      unfold read isInitialized isDeterministic entry?
      rw [none]
      exact ⟨located,rfl,rfl,rfl⟩

def ladder : Tree :=
  ((((Tree.new .blank).withChild 0 "a" .blank).withChild 1 ".." .blank).withChild 1 "b" .blank).declare 1 "key" .decimal

theorem ladder_evolves : (Tree.new .blank).Evolves [] ladder := by
  have one := Evolves.same.withChild 0 "a" .blank (t := .new .blank) (by decide +kernel) (by decide +kernel)
  have two := one.withChild 1 ".." .blank (by decide +kernel) (by decide +kernel)
  have three := two.withChild 1 "b" .blank (by decide +kernel) (by decide +kernel)
  exact .trans three (.declared 1 "key" .decimal)

theorem ladder_reaches : ladder.Navigates 0 (segments "@a") 1 := by
  have alone : segments "@a" = ["a"] := by decide +kernel
  have root : ladder.ancestors 0 = [] ++ 0 :: [] := by decide +kernel
  have known : (ladder.node 0).children.find? "a" = some 1 := by decide +kernel
  rw [alone]
  exact .relative (by decide) (.moved (.descends (by decide) root (by simp) known) .arrived)

theorem locate_sound_ladder :
    (Tree.new .blank).Evolves [] ladder ∧ ladder.Detour 0 (segments "@a") ("b" ++ "/" ++ "..") ∧
      (ladder.locate 0 ("@a" ++ "/" ++ ("b" ++ "/" ++ "..") ++ "/" ++ "key")).toOption = some ⟨1,"key"⟩ := by
  have known : (ladder.node 1).children.find? "b" = some 3 := by decide +kernel
  have detour := Detour.child ladder_reaches known (by decide) (by decide)
  have found : (ladder.locate 0 ("@a" ++ "/" ++ "key")).toOption = some ⟨1,"key"⟩ := by decide +kernel
  obtain ⟨_,_,_,detours⟩ := locate_sound ladder_evolves 0
  refine ⟨ladder_evolves,detour,?_⟩
  rw [detours "@a" _ "key" ⟨"a",by decide +kernel,by decide⟩ detour]
  cases located : ladder.locate 0 ("@a" ++ "/" ++ "key") <;> rw [located] at found
  · cases found
  · exact found

-- In a path that name means the parent, so that the detour leads two nodes up, here past the
-- root.
theorem ladder_misses :
    (Tree.new .blank).Evolves [] ladder ∧ ladder.Navigates 0 (segments "@a") 1 ∧
      (ladder.node 1).children.find? ".." = some 2 ∧
      (ladder.locate 0 ("@a" ++ "/" ++ "key")).toOption = some ⟨1,"key"⟩ ∧
      (ladder.locate 0 ("@a" ++ "/" ++ (".." ++ "/" ++ "..") ++ "/" ++ "key")).toOption = none :=
  ⟨ladder_evolves,ladder_reaches,by decide +kernel,by decide +kernel,by decide +kernel⟩

end DeferredAttributes.Tree
