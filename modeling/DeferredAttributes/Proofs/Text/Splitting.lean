import DeferredAttributes.Text.Blank

-- Words, trimming and the first occurrence of a piece, said by what a text is put together from.
-- The functions that take a text apart find these parts and no others.
namespace DeferredAttributes.Text

def Blanks (cs : List Char) : Prop := ∀ c ∈ cs, isBlank c = true

inductive Spaced : List Char → List (List Char) → Prop where
  | nil : Spaced [] []
  | blank {c : Char} {cs : List Char} {spaced : List (List Char)} (blank : isBlank c = true) (rest : Spaced cs spaced) :
      Spaced (c :: cs) spaced
  | word {word cs : List Char} {spaced : List (List Char)} (present : word ≠ [])
      (plain : ∀ c ∈ word, isBlank c = false) (ends : ∀ c ∈ cs.head?, isBlank c = true) (rest : Spaced cs spaced) :
      Spaced (word ++ cs) (word :: spaced)

structure Trimmed (cs trimmed : List Char) : Prop where
  around : ∃ before after, cs = before ++ trimmed ++ after ∧ Blanks before ∧ Blanks after
  first : ∀ c ∈ trimmed.head?, isBlank c = false
  last : ∀ c ∈ trimmed.getLast?, isBlank c = false

structure FirstAt (piece cs before after : List Char) : Prop where
  here : cs = before ++ piece ++ after
  first : ∀ other rest, cs = other ++ piece ++ rest → before.length ≤ other.length

section
variable {c : Char} {cs word : List Char} {spaced : List (List Char)}

theorem words_blank (blank : isBlank c = true) : words (c :: cs) = words cs := by
  cases cs <;> simp [words,blank]

theorem words_word (present : word ≠ []) (plain : ∀ c ∈ word, isBlank c = false)
    (ends : ∀ c ∈ cs.head?, isBlank c = true) : words (word ++ cs) = word :: words cs := by
  induction word with
  | nil => exact absurd rfl present
  | cons c rest ih =>
    obtain ⟨own,others⟩ := List.forall_mem_cons.mp plain
    cases rest with
    | nil =>
      cases cs with
      | nil => simp [words,own]
      | cons d more =>
        have blank : isBlank d = true := ends d rfl
        simp [words,own,blank]
    | cons d more =>
      have next : isBlank d = false := others d List.mem_cons_self
      have behind := ih (List.cons_ne_nil d more) others
      simp only [List.cons_append] at behind ⊢
      rw [words,if_neg (by simp [own])]
      simp only [next,Bool.false_eq_true,if_false,behind]

theorem Spaced.words (made : Spaced cs spaced) : Text.words cs = spaced := by
  induction made with
  | nil => rfl
  | blank blank rest ih => rw [words_blank blank,ih]
  | word present plain ends rest ih => rw [words_word present plain ends,ih]

theorem Spaced.blanks (made : Spaced cs []) : Blanks cs := by
  generalize none : ([] : List (List Char)) = spaced at made
  induction made with
  | nil => exact fun c member => absurd member List.not_mem_nil
  | blank blank rest ih => exact List.forall_mem_cons.mpr ⟨blank,ih none⟩
  | word => cases none

theorem Spaced.grown {d : Char} (own : isBlank c = false) (next : isBlank d = false)
    (made : Spaced (d :: cs) (word :: spaced)) : Spaced (c :: d :: cs) ((c :: word) :: spaced) := by
  generalize behind : d :: cs = text at made
  generalize all : word :: spaced = parts at made
  cases made with
  | nil => cases behind
  | blank blank rest =>
    cases behind
    cases next.symm.trans blank
  | word present plain ends rest =>
    cases all
    exact @Spaced.word (c :: word) _ _ (List.cons_ne_nil c word) (List.forall_mem_cons.mpr ⟨own,plain⟩) ends rest

theorem words_spaced (cs : List Char) : Spaced cs (words cs) := by
  fun_induction words cs with
  | case1 => exact .nil
  | case2 c cs blank ih => exact .blank blank ih
  | case3 c plain => exact @Spaced.word [c] [] [] (List.cons_ne_nil c []) (by simpa using plain) (by simp) .nil
  | case4 c plain d cs blank ih =>
    exact @Spaced.word [c] _ _ (List.cons_ne_nil c []) (by simpa using plain) (by simpa using blank) ih
  | case5 c plain d cs next none ih =>
    -- a character that is no blank belongs to a word
    rw [none] at ih
    exact absurd (ih.blanks d List.mem_cons_self) next
  | case6 c plain d cs next word rest found ih =>
    rw [found] at ih ⊢
    exact ih.grown (by simpa using plain) (by simpa using next)

end

section
variable {cs gap rest trimmed : List Char}

theorem trimLeft_split (cs : List Char) : ∃ gap, cs = gap ++ trimLeft cs ∧ Blanks gap ∧
    ∀ c ∈ (trimLeft cs).head?, isBlank c = false := by
  refine ⟨cs.takeWhile isBlank,List.takeWhile_append_dropWhile.symm,List.all_eq_true.mp List.all_takeWhile,?_⟩
  intro c first
  have plain := List.head?_dropWhile_not isBlank cs
  rw [show (cs.dropWhile isBlank).head? = some c from first] at plain
  exact plain

theorem trimLeft_behind (blank : Blanks gap) (first : ∀ c ∈ rest.head?, isBlank c = false) :
    trimLeft (gap ++ rest) = rest := by
  unfold trimLeft
  rw [List.dropWhile_append_of_pos blank]
  cases rest with
  | nil => rfl
  | cons c more => exact List.dropWhile_cons_of_neg (by simp [first c rfl])

theorem Blanks.reverse (blank : Blanks gap) : Blanks gap.reverse :=
  fun c member => blank c (List.mem_reverse.mp member)

theorem Trimmed.trim (made : Trimmed cs trimmed) : Text.trim cs = trimmed := by
  obtain ⟨⟨before,after,rfl,front,back⟩,first,last⟩ := made
  unfold Text.trim
  cases trimmed with
  | nil =>
    have all : Blanks (before ++ [] ++ after) := by simpa [Blanks,or_imp,forall_and] using And.intro front back
    have none : trimLeft (before ++ [] ++ after ++ []) = [] := trimLeft_behind all (by simp)
    rw [List.append_nil] at none
    rw [none]
    rfl
  | cons c more =>
    have ending : ∀ d ∈ (c :: more).reverse.head?, isBlank d = false := by
      intro d member
      exact last d (by rwa [List.head?_reverse] at member)
    rw [List.append_assoc,trimLeft_behind front (by simpa using first),List.reverse_append,
      trimLeft_behind back.reverse ending,List.reverse_reverse]

theorem trim_trimmed (cs : List Char) : Trimmed cs (trim cs) := by
  obtain ⟨before,split,front,first⟩ := trimLeft_split cs
  obtain ⟨after,behind,back,last⟩ := trimLeft_split (trimLeft cs).reverse
  have whole : trimLeft cs = trim cs ++ after.reverse := by
    have reversed := congrArg List.reverse behind
    rwa [List.reverse_reverse,List.reverse_append] at reversed
  refine ⟨⟨before,after.reverse,?_,front,back.reverse⟩,?_,?_⟩
  · rw [List.append_assoc,← whole,← split]
  · intro c head
    apply first
    rw [whole,List.head?_append,Option.mem_def.mp head]
    rfl
  · intro c member
    apply last
    rwa [trim,List.getLast?_reverse] at member

theorem Trimmed.again (made : Trimmed cs trimmed) : Trimmed trimmed trimmed :=
  ⟨⟨[],[],by simp,by simp [Blanks],by simp [Blanks]⟩,made.first,made.last⟩

end

section
variable {piece cs before after : List Char}

theorem splitOnce_none : splitOnce? piece cs = none ↔ ¬piece <:+: cs := by
  induction cs with
  | nil => cases piece <;> simp [splitOnce?]
  | cons c rest ih =>
    rw [splitOnce?,List.infix_cons_iff,← List.isPrefixOf_iff_prefix]
    by_cases here : piece.isPrefixOf (c :: rest) = true
    · simp [here]
    · simp only [here,Bool.false_eq_true,if_false,Option.map_eq_none_iff,ih,false_or]

theorem splitOnce_first (found : splitOnce? piece cs = some (before,after)) : FirstAt piece cs before after := by
  induction cs generalizing before with
  | nil =>
    cases piece with
    | nil => cases found; exact ⟨rfl,by simp⟩
    | cons => cases found
  | cons c rest ih =>
    rw [splitOnce?] at found
    by_cases here : piece.isPrefixOf (c :: rest) = true
    · rw [if_pos here] at found
      cases found
      obtain ⟨behind,whole⟩ := List.isPrefixOf_iff_prefix.mp here
      refine ⟨?_,fun _ _ _ => Nat.zero_le _⟩
      rw [← whole,List.drop_left,List.nil_append]
    · rw [if_neg here] at found
      obtain ⟨⟨front,back⟩,later,same⟩ := Option.map_eq_some_iff.mp found
      cases same
      obtain ⟨split,first⟩ := ih later
      refine ⟨congrArg (c :: ·) split,?_⟩
      intro other behind whole
      cases other with
      | nil => exact absurd (List.isPrefixOf_iff_prefix.mpr ⟨behind,whole.symm⟩) here
      | cons d other =>
        cases whole
        exact Nat.succ_le_succ (first other behind rfl)

theorem FirstAt.split (found : FirstAt piece cs before after) : splitOnce? piece cs = some (before,after) := by
  obtain ⟨whole,first⟩ := found
  cases split : splitOnce? piece cs with
  | none => exact absurd ⟨before,after,whole.symm⟩ (splitOnce_none.mp split)
  | some parts =>
    obtain ⟨front,back⟩ := parts
    obtain ⟨also,least⟩ := splitOnce_first split
    have same : front.length = before.length := Nat.le_antisymm (least before after whole) (first front back also)
    rw [whole,List.append_assoc,List.append_assoc] at also
    obtain ⟨rfl,behind⟩ := List.append_inj also same.symm
    cases List.append_cancel_left behind
    rfl

end
end DeferredAttributes.Text
