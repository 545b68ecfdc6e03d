import DeferredAttributes.Expression.Parse
import DeferredAttributes.Proofs.Expression.Lexemes

-- The tokens of a text that goes on behind a blank or a closing bracket. Such a character ends
-- every token, so what stands before it is read as if the text ended there.
namespace DeferredAttributes.Expression
open Text Decimal

theorem blank_apart {gap c : Char} (blank : isBlank gap = true) (plain : isBlank c = false) : gap ≠ c := by
  rintro rfl
  rw [plain] at blank
  cases blank

theorem blank_unnamed {gap : Char} (blank : isBlank gap = true) : isNameChar gap = false := by
  have code : gap.val.toNat = gap.toNat := rfl
  have underscore := blank_apart blank (show isBlank '_' = false by decide)
  simp only [isBlank,Bool.or_eq_true,Bool.and_eq_true,decide_eq_true_eq,beq_iff_eq] at blank
  simp only [isNameChar,isLetter,isDigit,Char.le_def,UInt32.le_iff_toNat_le,Bool.or_eq_false_iff,
    Bool.and_eq_false_iff,decide_eq_false_iff_not,beq_eq_false_iff_ne,code]
  refine ⟨⟨?_,?_⟩,underscore⟩ <;> simp <;> omega

theorem takeWhile_gap (keep : Char → Bool) {gap : Char} (stops : keep gap = false) (cs more : List Char) :
    (cs ++ gap :: more).takeWhile keep = cs.takeWhile keep := by
  induction cs with
  | nil => rw [List.nil_append,List.takeWhile_cons_of_neg (by simp [stops]),List.takeWhile_nil]
  | cons c cs ih =>
    rw [List.cons_append,List.takeWhile_cons,List.takeWhile_cons,ih]

structure EndsToken (c : Char) : Prop where
  boundary : isBoundary c = true
  unnamed : isNameChar c = false
  apart : ∀ other ∈ ['/','.','|','&','='], c ≠ other

theorem EndsToken.blank {gap : Char} (blank : isBlank gap = true) : EndsToken gap := by
  refine ⟨by simp [isBoundary,blank],blank_unnamed blank,fun other member => blank_apart blank ?_⟩
  simp only [List.mem_cons,List.not_mem_nil,or_false] at member
  rcases member with rfl | rfl | rfl | rfl | rfl <;> rfl

theorem EndsToken.closing : EndsToken ')' := ⟨by decide,by decide,by simp⟩

theorem operatorOf_ended {next : Char} (ends : EndsToken next) (c : Char) (cs more : List Char) :
    operatorOf? c (cs ++ next :: more).head? = operatorOf? c cs.head? := by
  cases cs with
  | cons first rest => rfl
  | nil =>
    have bar := ends.apart '|' (by decide)
    have both := ends.apart '&' (by decide)
    have equal := ends.apart '=' (by decide)
    rw [List.nil_append,List.head?_cons,List.head?_nil]
    unfold operatorOf?
    split <;> simp_all

theorem lexeme_ended {more : List Char} (ends : ∀ c ∈ more.head?, EndsToken c) (offset : Nat) (first : Char)
    (cs : List Char) : lexeme offset first (cs ++ more) = lexeme offset first cs := by
  cases more with
  | nil => rw [List.append_nil]
  | cons next more =>
    have ends := ends next rfl
    unfold lexeme identifierRest
    have literal := takeWhile_gap (fun c => !isBoundary c) (by rw [ends.boundary]; rfl) cs more
    have path : ∀ path : Bool, (cs ++ next :: more).takeWhile
        (fun c => isNameChar c || (path && (c == '/' || c == '.'))) =
          cs.takeWhile fun c => isNameChar c || (path && (c == '/' || c == '.')) := by
      intro path
      have slash := ends.apart '/' (by decide)
      have point := ends.apart '.' (by decide)
      exact takeWhile_gap _ (by simp [ends.unnamed,slash,point]) cs more
    rw [literal,path,operatorOf_ended ends]

def Cursor.followed (c : Cursor) (more : List Char) : Cursor := ⟨c.rest ++ more,c.offset⟩

def Cursor.extended (c : Cursor) (more : List Char) : Cursor := ⟨c.rest ++ ' ' :: more,c.offset⟩

namespace Cursor
variable {c d : Cursor} {more : List Char}

theorem advance_followed {count : Nat} (within : count ≤ c.rest.length) (more : List Char) :
    (c.followed more).advance count = (c.advance count).followed more := by
  unfold advance followed
  dsimp only
  rw [List.drop_append_of_le_length within,List.take_append_of_le_length within]

theorem skipBlanks_cons {first : Char} {rest : List Char} (blank : isBlank first = true) (offset : Nat) :
    skipBlanks ⟨first :: rest,offset⟩ = skipBlanks ⟨rest,offset + first.utf8Size⟩ := by
  unfold skipBlanks advance
  simp [List.takeWhile_cons_of_pos blank,bytes,Nat.add_assoc]

theorem skipBlanks_token {first : Char} {rest : List Char} (plain : isBlank first = false) (offset : Nat) :
    skipBlanks ⟨first :: rest,offset⟩ = ⟨first :: rest,offset⟩ := by
  unfold skipBlanks advance
  simp [plain,bytes]

theorem skipBlanks_followed (c : Cursor) (more : List Char) :
    (c.skipBlanks.rest ≠ [] → (c.followed more).skipBlanks = c.skipBlanks.followed more) ∧
      (c.skipBlanks.rest = [] → (c.followed more).skipBlanks = skipBlanks ⟨more,c.skipBlanks.offset⟩) := by
  obtain ⟨rest,offset⟩ := c
  induction rest generalizing offset with
  | nil => exact ⟨fun some => absurd rfl some,fun _ => rfl⟩
  | cons first rest ih =>
    cases blank : isBlank first with
    | true =>
      have here : followed ⟨first :: rest,offset⟩ more = ⟨first :: (rest ++ more),offset⟩ := rfl
      rw [here,skipBlanks_cons blank,skipBlanks_cons blank]
      exact ih (offset + first.utf8Size)
    | false =>
      rw [skipBlanks_token blank]
      exact ⟨fun _ => skipBlanks_token blank offset,fun none => (by cases none)⟩

theorem next_followed {outcome : Except TokenError (Option Token)} (taken : c.next = (outcome,d))
    (some : outcome ≠ .ok none) (ends : ∀ c ∈ more.head?, EndsToken c) :
    (c.followed more).next = (outcome,d.followed more) := by
  unfold next at taken ⊢
  dsimp only at taken ⊢
  cases rest : c.skipBlanks.rest with
  | nil =>
    rw [rest] at taken
    cases taken
    exact absurd rfl some
  | cons first cs =>
    have skipped := (c.skipBlanks_followed more).1 (by rw [rest]; exact List.cons_ne_nil _ _)
    have behind : (c.skipBlanks.followed more).rest = first :: (cs ++ more) := by
      unfold followed
      rw [rest]
      rfl
    have offset : (c.skipBlanks.followed more).offset = c.skipBlanks.offset := rfl
    simp only [skipped,behind,offset,lexeme_ended ends]
    rw [rest] at taken
    dsimp only at taken
    cases found : lexeme c.skipBlanks.offset first cs with
    | error error =>
      rw [found] at taken
      cases taken
      rfl
    | ok token =>
      rw [found] at taken
      cases taken
      have within : token.2 ≤ c.skipBlanks.rest.length := by
        rw [rest]
        exact (lexeme_makes.mp found).within.2
      simp only [advance_followed within]

theorem next_followed_end (taken : c.next = (.ok none,d)) (more : List Char) :
    (c.followed more).next = next ⟨more,d.offset⟩ := by
  unfold next at taken ⊢
  dsimp only at taken ⊢
  split at taken
  · rename_i nothing
    cases taken
    rw [(c.skipBlanks_followed more).2 nothing]
  · split at taken <;> cases taken

theorem lexed_token {token : Token} (taken : c.next = (.ok (some token),d)) :
    c.lexed = ⟨⟨token,d.offset⟩ :: d.lexed.lexemes,d.lexed.ending⟩ := by
  rw [lexed]
  split <;> rename_i here <;> rw [taken] at here <;> cases here
  rfl

theorem lexed_rejected {error : TokenError} (taken : c.next = (.error error,d)) : c.lexed = ⟨[],.rejected error⟩ := by
  rw [lexed]
  split <;> rename_i here <;> rw [taken] at here <;> cases here
  rfl

theorem lexed_end (taken : c.next = (.ok none,d)) : c.lexed = ⟨[],.finished d.offset⟩ := by
  rw [lexed]
  split <;> rename_i here <;> rw [taken] at here <;> cases here
  rfl

theorem lexed_next {e : Cursor} (same : c.next = e.next) : c.lexed = e.lexed := by
  rcases next : e.next with ⟨_ | (_ | token),after⟩
  · rw [lexed_rejected next,lexed_rejected (same.trans next)]
  · rw [lexed_end next,lexed_end (same.trans next)]
  · rw [lexed_token next,lexed_token (same.trans next)]

theorem lexed_followed_rejected {error : TokenError} (rejected : c.lexed.ending = .rejected error)
    (ends : ∀ c ∈ more.head?, EndsToken c) : (c.followed more).lexed = c.lexed := by
  fun_induction lexed c with
  | case1 c token d taken after ih =>
    rw [lexed_token (next_followed taken (by simp) ends),ih rejected]
    rfl
  | case2 => cases rejected
  | case3 c error d taken => exact lexed_rejected (next_followed taken (by simp) ends)

theorem lexed_followed_finished {length : Nat} (finished : c.lexed.ending = .finished length)
    (ends : ∀ c ∈ more.head?, EndsToken c) : (c.followed more).lexed =
      ⟨c.lexed.lexemes ++ (lexed ⟨more,length⟩).lexemes,(lexed ⟨more,length⟩).ending⟩ := by
  fun_induction lexed c with
  | case1 c token d taken after ih =>
    rw [lexed_token (next_followed taken (by simp) ends),ih finished]
    rfl
  | case2 c d taken =>
    cases finished
    exact lexed_next (next_followed_end taken more)
  | case3 => cases finished

theorem space_ends (more : List Char) : ∀ c ∈ (' ' :: more).head?, EndsToken c := by
  rintro c ⟨⟩
  exact .blank (by decide)

theorem lexed_extended_rejected {error : TokenError} (rejected : c.lexed.ending = .rejected error) (more : List Char) :
    (c.extended more).lexed = c.lexed := lexed_followed_rejected rejected (space_ends more)

theorem lexed_extended_finished {length : Nat} (finished : c.lexed.ending = .finished length) (more : List Char) :
    (c.extended more).lexed =
      ⟨c.lexed.lexemes ++ (lexed ⟨more,length + 1⟩).lexemes,(lexed ⟨more,length + 1⟩).ending⟩ := by
  have skipped : next ⟨' ' :: more,length⟩ = next ⟨more,length + 1⟩ := by
    unfold next
    rw [skipBlanks_cons (by decide)]
    rfl
  rw [← lexed_next skipped]
  exact lexed_followed_finished finished (space_ends more)

end Cursor
end DeferredAttributes.Expression
