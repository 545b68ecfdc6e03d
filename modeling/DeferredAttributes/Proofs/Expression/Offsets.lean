import DeferredAttributes.Proofs.Expression.Pieces

-- Where the tokens of a text end. Each ends behind the one before it, and none behind the place
-- where reading the tokens stops.
namespace DeferredAttributes.Expression
open Text

def Ending.offset : Ending → Nat
  | .finished length => length
  | .rejected error => error.offset

namespace Cursor
variable {c d : Cursor}

theorem skipBlanks_offset (c : Cursor) : c.offset ≤ c.skipBlanks.offset := Nat.le_add_right _ _

theorem next_token {token : Token} (taken : c.next = (.ok (some token),d)) : c.offset < d.offset := by
  obtain ⟨⟨first,more,shape,_⟩,_,stop⟩ := next_word taken
  have skipped := c.skipBlanks_offset
  have positive := first.utf8Size_pos
  rw [stop,shape,bytes]
  omega

theorem next_ending (taken : c.next = (.ok none,d)) : c.offset ≤ d.offset := by
  obtain ⟨_,_,rfl⟩ := next_ended taken
  exact Nat.le_add_right _ _

theorem next_rejected {error : TokenError} (taken : c.next = (.error error,d)) : c.offset ≤ error.offset := by
  obtain ⟨_,rfl,_,_,place,_⟩ := next_refused taken
  rw [place]
  exact c.skipBlanks_offset

end Cursor

structure Lexed.Placed (start : Nat) (lexed : Lexed) : Prop where
  within : ∀ l ∈ lexed.lexemes, start < l.stop ∧ l.stop ≤ lexed.ending.offset
  ending : start ≤ lexed.ending.offset
  ascending : lexed.lexemes.Pairwise fun one two => one.stop < two.stop

theorem Cursor.lexed_placed (c : Cursor) : c.lexed.Placed c.offset := by
  fun_induction lexed c with
  | case1 c token d taken after ih =>
    have forward := next_token taken
    refine ⟨?_,Nat.le_trans (Nat.le_of_lt forward) ih.ending,List.pairwise_cons.mpr ⟨?_,ih.ascending⟩⟩
    · intro l member
      rcases List.mem_cons.mp member with rfl | later
      · exact ⟨forward,ih.ending⟩
      · obtain ⟨behind,before⟩ := ih.within l later
        exact ⟨Nat.lt_trans forward behind,before⟩
    · exact fun l later => (ih.within l later).1
  | case2 c d taken =>
    exact ⟨fun l impossible => (by cases impossible),next_ending taken,.nil⟩
  | case3 c error d taken =>
    exact ⟨fun l impossible => (by cases impossible),next_rejected taken,.nil⟩

end DeferredAttributes.Expression
