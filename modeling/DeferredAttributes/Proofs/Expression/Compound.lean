import DeferredAttributes.Proofs.Expression.Spacing

-- Texts that are put together from other texts. Brackets keep the tokens of a text apart from what
-- stands around it, so its tokens and its value are the same inside as on its own.
namespace DeferredAttributes.Expression
open Text

namespace Cursor
variable {c d : Cursor}

theorem next_shifted {outcome : Option Token} (taken : c.next = (.ok outcome,d)) (shift : Nat) :
    next ⟨c.rest,c.offset + shift⟩ = (.ok outcome,⟨d.rest,d.offset + shift⟩) := by
  have moved : ∀ (e : Cursor) (count : Nat),
      advance ⟨e.rest,e.offset + shift⟩ count = ⟨(e.advance count).rest,(e.advance count).offset + shift⟩ := by
    intro e count
    unfold advance
    rw [Nat.add_right_comm]
  have skipped : skipBlanks ⟨c.rest,c.offset + shift⟩ = ⟨c.skipBlanks.rest,c.skipBlanks.offset + shift⟩ := moved c _
  rcases c.next_cases with ⟨nothing,none⟩ | ⟨first,cs,behind,_,⟨token,length,makes,same⟩ | ⟨error,_,failed⟩⟩
  · cases none.symm.trans taken
    unfold next
    simp only [skipped,nothing]
  · cases same.symm.trans taken
    unfold next
    simp only [skipped,behind,lexeme_makes.mpr makes,← moved]
  · cases failed.symm.trans taken

theorem lexed_shifted {length : Nat} (finished : c.lexed.ending = .finished length) (shift : Nat) :
    (lexed ⟨c.rest,c.offset + shift⟩).lexemes.map Lexeme.token = c.lexed.lexemes.map Lexeme.token ∧
      (lexed ⟨c.rest,c.offset + shift⟩).ending = .finished (length + shift) := by
  fun_induction lexed c with
  | case1 c token d taken after ih =>
    obtain ⟨same,ends⟩ := ih finished
    rw [lexed_token (next_shifted taken shift)]
    exact ⟨congrArg (token :: ·) same,ends⟩
  | case2 c d taken =>
    cases finished
    rw [lexed_end (next_shifted taken shift)]
    exact ⟨rfl,rfl⟩
  | case3 => cases finished

end Cursor

def Reads (cs : List Char) (read : List Token) : Prop :=
  ∀ offset, (Cursor.lexed ⟨cs,offset⟩).lexemes.map Lexeme.token = read ∧
    ∃ length, (Cursor.lexed ⟨cs,offset⟩).ending = .finished length

theorem reads_tokens {text : String} {read : List Token} :
    Reads text.toList read ↔ Tokenizes text ∧ tokens text = read := by
  constructor
  · intro reads
    obtain ⟨same,finished⟩ := reads 0
    exact ⟨finished,same⟩
  · rintro ⟨⟨length,finished⟩,rfl⟩ offset
    obtain ⟨same,ends⟩ := Cursor.lexed_shifted finished offset
    change (Cursor.lexed ⟨text.toList,0 + offset⟩).lexemes.map Lexeme.token = _ at same
    change (Cursor.lexed ⟨text.toList,0 + offset⟩).ending = _ at ends
    rw [Nat.zero_add] at same ends
    exact ⟨same,_,ends⟩

namespace Reads
variable {one two cs : List Char} {first second read : List Token}

theorem append (left : Reads one first) (right : Reads two second) (ends : ∀ c ∈ two.head?, EndsToken c) :
    Reads (one ++ two) (first ++ second) := by
  intro offset
  obtain ⟨same,length,finished⟩ := left offset
  obtain ⟨also,ending⟩ := right length
  have whole := Cursor.lexed_followed_finished finished ends
  change Cursor.lexed ⟨one ++ two,offset⟩ = _ at whole
  rw [whole,List.map_append,same,also]
  exact ⟨rfl,ending⟩

theorem token (own : List Char) {token : Token} (reads : Reads cs read)
    (taken : ∀ offset, ∃ d : Cursor, d.rest = cs ∧ Cursor.next ⟨own ++ cs,offset⟩ = (.ok (some token),d)) :
    Reads (own ++ cs) (token :: read) := by
  intro offset
  obtain ⟨d,rfl,taken⟩ := taken offset
  obtain ⟨same,ending⟩ := reads d.offset
  rw [Cursor.lexed_token taken]
  exact ⟨congrArg (token :: ·) same,ending⟩

theorem space (reads : Reads cs read) : Reads (' ' :: cs) read := by
  intro offset
  have skipped : Cursor.next ⟨' ' :: cs,offset⟩ = Cursor.next ⟨cs,offset + 1⟩ := by
    unfold Cursor.next
    rw [Cursor.skipBlanks_cons (by decide)]
    rfl
  rw [Cursor.lexed_next skipped]
  exact reads _

theorem none : Reads [] [] := by
  intro offset
  rw [Cursor.lexed_end (d := ⟨[],offset⟩) rfl]
  exact ⟨rfl,_,rfl⟩

theorem operator (op : BinaryOperator) : Reads op.symbol.toList [.operator (.binary op)] := by
  rw [← List.append_nil op.symbol.toList]
  apply token op.symbol.toList none
  intro offset
  rw [List.append_nil]
  cases op <;> exact ⟨_,rfl,rfl⟩

theorem bracketed (inside : Reads one first) (behind : Reads cs read) :
    Reads ('(' :: (one ++ ')' :: cs)) (.openBracket :: (first ++ .closeBracket :: read)) := by
  have closing : Reads (')' :: cs) (.closeBracket :: read) := by
    apply token [')'] behind
    intro offset
    refine ⟨⟨cs,offset + 1⟩,rfl,?_⟩
    unfold Cursor.next
    rw [List.singleton_append,Cursor.skipBlanks_token (by decide)]
    rfl
  have all := inside.append closing (by rintro c ⟨⟩; exact .closing)
  apply token ['('] all
  intro offset
  refine ⟨⟨one ++ ')' :: cs,offset + 1⟩,rfl,?_⟩
  unfold Cursor.next
  rw [List.singleton_append,Cursor.skipBlanks_token (by decide)]
  rfl

end Reads
end DeferredAttributes.Expression
