import DeferredAttributes.Proofs.Expression.Continuing

-- What the calls of the tokenizer take from a text: blanks and then the characters of one token,
-- call after call. Nothing is lost between them, and no character is cut.
namespace DeferredAttributes.Expression
open Text

theorem bytes_ofList (cs : List Char) : (String.ofList cs).utf8ByteSize = bytes cs := by
  induction cs with
  | nil => rfl
  | cons c cs ih => rw [String.ofList_cons,String.utf8ByteSize_append,String.utf8ByteSize_singleton,ih,bytes]

namespace Cursor

-- The blanks that the next call skips, and the characters that it takes behind them.
def gap (c : Cursor) : List Char := c.rest.takeWhile isBlank

def word (c : Cursor) : List Char :=
  c.skipBlanks.rest.take (c.skipBlanks.rest.length - c.next.2.rest.length)

def after (c : Cursor) : Nat → Cursor
  | 0 => c
  | n + 1 => c.next.2.after n

def pieces (c : Cursor) : Nat → List (List Char × List Char)
  | 0 => []
  | n + 1 => (c.gap,c.word) :: c.next.2.pieces n

section
variable {c d : Cursor} {token : Token} {error : TokenError}

theorem gap_blank (c : Cursor) : ∀ x ∈ c.gap, isBlank x = true := fun _ => List.mem_takeWhile_imp

theorem skipBlanks_gap (c : Cursor) :
    c.rest = c.gap ++ c.skipBlanks.rest ∧ c.skipBlanks.offset = c.offset + bytes c.gap := by
  have cut : c.rest.take (c.rest.takeWhile isBlank).length = c.gap := take_takeWhile isBlank c.rest
  unfold skipBlanks advance
  dsimp only
  rw [cut]
  refine ⟨?_,rfl⟩
  rw [← cut,List.take_append_drop]

theorem skipBlanks_plain {first : Char} {cs : List Char} (behind : c.skipBlanks.rest = first :: cs) :
    isBlank first = false := by
  have stops := List.head?_dropWhile_not isBlank c.rest
  have same : c.rest.dropWhile isBlank = c.skipBlanks.rest :=
    List.append_cancel_left (List.takeWhile_append_dropWhile.trans c.skipBlanks_gap.1)
  rw [same,behind] at stops
  exact stops

theorem next_cases (c : Cursor) :
    c.skipBlanks.rest = [] ∧ c.next = (.ok none,c.skipBlanks) ∨
      ∃ first cs, c.skipBlanks.rest = first :: cs ∧ isBlank first = false ∧
        ((∃ token length, Makes first cs token length ∧ c.next = (.ok (some token),c.skipBlanks.advance length)) ∨
          ∃ error, lexeme c.skipBlanks.offset first cs = .error error ∧ c.next = (.error error,c.skipBlanks)) := by
  cases behind : c.skipBlanks.rest with
  | nil =>
    refine .inl ⟨rfl,?_⟩
    unfold next
    simp only [behind]
  | cons first cs =>
    refine .inr ⟨first,cs,rfl,skipBlanks_plain behind,?_⟩
    unfold next
    simp only [behind]
    cases found : lexeme c.skipBlanks.offset first cs with
    | ok made => exact .inl ⟨made.1,made.2,lexeme_makes.mp found,rfl⟩
    | error error => exact .inr ⟨error,rfl,rfl⟩

theorem next_made (taken : c.next = (.ok (some token),d)) :
    ∃ first cs length, c.skipBlanks.rest = first :: cs ∧ isBlank first = false ∧ Makes first cs token length ∧
      d = c.skipBlanks.advance length := by
  rcases c.next_cases with ⟨_,none⟩ | ⟨first,cs,behind,plain,⟨made,length,makes,same⟩ | ⟨error,_,failed⟩⟩
  · cases none.symm.trans taken
  · cases same.symm.trans taken
    exact ⟨first,cs,length,behind,plain,makes,rfl⟩
  · cases failed.symm.trans taken

theorem next_word (taken : c.next = (.ok (some token),d)) :
    (∃ first more, c.word = first :: more ∧ isBlank first = false ∧ Makes first more token c.word.length) ∧
      c.skipBlanks.rest = c.word ++ d.rest ∧ d.offset = c.skipBlanks.offset + bytes c.word := by
  obtain ⟨first,cs,length,behind,plain,makes,rfl⟩ := next_made taken
  obtain ⟨one,within⟩ := makes.within
  have cut : c.word = c.skipBlanks.rest.take length := by
    unfold word
    rw [taken,advance,List.length_drop,behind,List.length_cons,Nat.sub_sub_self within]
  have size : c.word.length = length := by
    rw [cut,behind,List.length_take,List.length_cons,Nat.min_eq_left within]
  have shape : c.word = first :: cs.take (length - 1) := by
    rw [cut,behind,List.take_cons one]
  refine ⟨⟨first,_,shape,plain,size.symm ▸ makes.alone⟩,?_,?_⟩
  · rw [cut]
    exact (List.take_append_drop ..).symm
  · rw [cut]
    rfl

theorem next_spelled (taken : c.next = (.ok (some token),d)) : token.Spelled c.word := by
  obtain ⟨⟨first,more,shape,_,makes⟩,_⟩ := next_word taken
  have spelled := makes.spelled
  have size : c.word.length - 1 = more.length := by rw [shape,List.length_cons,Nat.add_sub_cancel]
  rwa [size,List.take_length,← shape] at spelled

theorem next_ended (taken : c.next = (.ok none,d)) : c.rest = c.gap ∧ c.word = [] ∧ d = ⟨[],c.offset + bytes c.gap⟩ := by
  obtain ⟨skipped,offset⟩ := c.skipBlanks_gap
  rcases c.next_cases with ⟨nothing,none⟩ | ⟨first,cs,_,_,⟨made,length,_,same⟩ | ⟨error,_,failed⟩⟩
  · cases none.symm.trans taken
    rw [nothing,List.append_nil] at skipped
    refine ⟨skipped,?_,?_⟩
    · unfold word
      rw [nothing,List.take_nil]
    · rw [← offset,← nothing]
  · cases same.symm.trans taken
  · cases failed.symm.trans taken

theorem next_refused (taken : c.next = (.error error,d)) :
    c.word = [] ∧ d = c.skipBlanks ∧ (∃ first more, d.rest = first :: more ∧ isBlank first = false) ∧
      error.Starts d.rest ∧ error.offset = d.offset ∧ d.next = (.error error,d) := by
  rcases c.next_cases with ⟨_,none⟩ | ⟨first,cs,behind,plain,⟨made,length,_,same⟩ | ⟨other,rejected,failed⟩⟩
  · cases none.symm.trans taken
  · cases same.symm.trans taken
  · cases failed.symm.trans taken
    obtain ⟨offset,starts⟩ := lexeme_rejects rejected
    have stays : c.skipBlanks.skipBlanks = c.skipBlanks := by
      have shape : c.skipBlanks = ⟨first :: cs,c.skipBlanks.offset⟩ := by rw [← behind]
      rw [shape]
      exact skipBlanks_token plain _
    refine ⟨?_,rfl,⟨first,cs,behind,plain⟩,behind ▸ starts,offset,?_⟩
    · unfold word
      rw [taken,Nat.sub_self,List.take_zero]
    · unfold next
      simp only [stays,behind,rejected]

theorem next_taken (c : Cursor) :
    c.rest = c.gap ++ c.word ++ c.next.2.rest ∧ c.next.2.offset = c.offset + bytes (c.gap ++ c.word) := by
  obtain ⟨skipped,offset⟩ := c.skipBlanks_gap
  rw [bytes_append]
  rcases next : c.next with ⟨error | token,d⟩
  · obtain ⟨nothing,rfl,_⟩ := next_refused next
    rw [nothing,List.append_nil,offset]
    exact ⟨skipped,rfl⟩
  · cases token with
    | none =>
      obtain ⟨whole,nothing,rfl⟩ := next_ended next
      rw [nothing,List.append_nil]
      exact ⟨(List.append_nil _).symm ▸ whole,rfl⟩
    | some token =>
      obtain ⟨_,rest,stop⟩ := next_word next
      rw [List.append_assoc,← rest,stop,offset,Nat.add_assoc]
      exact ⟨skipped,rfl⟩

theorem after_taken (c : Cursor) (n : Nat) :
    c.rest = (c.pieces n).flatMap (fun piece => piece.1 ++ piece.2) ++ (c.after n).rest ∧
      (c.after n).offset = c.offset + bytes ((c.pieces n).flatMap fun piece => piece.1 ++ piece.2) := by
  induction n generalizing c with
  | zero => exact ⟨rfl,rfl⟩
  | succ n ih =>
    obtain ⟨rest,offset⟩ := c.next_taken
    obtain ⟨later,stop⟩ := ih c.next.2
    unfold pieces after
    rw [List.flatMap_cons,bytes_append,stop,offset,Nat.add_assoc,List.append_assoc,← later]
    exact ⟨rest,rfl⟩

theorem after_refused (refused : d.next = (.error error,d)) (n : Nat) : d.after n = d := by
  induction n with
  | zero => rfl
  | succ n ih =>
    unfold after
    rw [refused]
    exact ih

end
end Cursor

-- What the calls have taken is the text up to where the tokenizer stands: blanks, and with a
-- token the characters that it is written with. An error stays where it is for all later calls.
theorem calls_partition (text : String) (n : Nat) :
    let c := (Cursor.start text.toList).after n
    let taken := ((Cursor.start text.toList).pieces n).flatMap fun piece => piece.1 ++ piece.2
    (text.toList = taken ++ c.rest ∧ c.offset = bytes taken) ∧
    (String.Pos.Raw.IsValid text ⟨c.offset⟩ ∧ c.offset ≤ text.utf8ByteSize) ∧
    match c.next with
    | (.ok (some token),d) =>
      c.rest = c.gap ++ c.word ++ d.rest ∧ (∀ x ∈ c.gap, isBlank x = true) ∧
        (∃ first more, c.word = first :: more ∧ isBlank first = false) ∧ token.Spelled c.word
    | (.ok none,d) => (∀ x ∈ c.rest, isBlank x = true) ∧ d.rest = []
    | (.error error,d) =>
      c.rest = c.gap ++ d.rest ∧ (∀ x ∈ c.gap, isBlank x = true) ∧
        (∃ first more, d.rest = first :: more ∧ isBlank first = false) ∧ error.Starts d.rest ∧
        error.offset = d.offset ∧ ∀ m, (d.after m).next = (.error error,d) := by
  intro c taken
  obtain ⟨split,offset⟩ := (Cursor.start text.toList).after_taken n
  have split : text.toList = taken ++ c.rest := split
  have offset : c.offset = bytes taken := offset.trans (Nat.zero_add _)
  have valid : String.Pos.Raw.IsValid text ⟨c.offset⟩ := by
    rw [← text.ofList_toList,String.Pos.Raw.isValid_ofList]
    refine ⟨taken.length,?_⟩
    rw [split,List.take_left,bytes_ofList]
    exact offset
  refine ⟨⟨split,offset⟩,⟨valid,valid.le_utf8ByteSize⟩,?_⟩
  have rest := c.next_taken.1
  have blank := c.gap_blank
  rcases next : c.next with ⟨error | token,d⟩
  · obtain ⟨nothing,_,first,starts,place,again⟩ := Cursor.next_refused next
    rw [next,nothing,List.append_nil] at rest
    refine ⟨rest,blank,first,starts,place,fun m => ?_⟩
    rw [Cursor.after_refused again]
    exact again
  · rw [next] at rest
    cases token with
    | none =>
      obtain ⟨whole,_,rfl⟩ := Cursor.next_ended next
      exact ⟨whole ▸ blank,rfl⟩
    | some token =>
      obtain ⟨⟨first,more,shape,plain,_⟩,_⟩ := Cursor.next_word next
      exact ⟨rest,blank,⟨first,more,shape,plain⟩,Cursor.next_spelled next⟩

end DeferredAttributes.Expression
