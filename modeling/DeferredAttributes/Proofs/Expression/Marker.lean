import DeferredAttributes.Proofs.Expression.Malformed
import DeferredAttributes.Proofs.Expression.Pieces

-- Where the star of an error message stands: in front of the token that the tokenizer rejects, at
-- the end of the text, or behind the last token that was taken.
namespace DeferredAttributes.Expression
open Text

theorem charactersBefore_bytes (before rest : List Char) :
    charactersBefore? (bytes before) (before ++ rest) = some before := by
  induction before with
  | nil => rw [bytes,charactersBefore?]
  | cons c cs ih =>
    obtain ⟨more,some⟩ := Nat.exists_eq_succ_of_ne_zero (Nat.ne_of_gt (Nat.add_pos_left c.utf8Size_pos (bytes cs)))
    rw [bytes,List.cons_append,some,charactersBefore?,← Nat.succ_eq_add_one,← some,
      if_pos (Nat.le_add_right ..),Nat.add_sub_cancel_left,ih]
    rfl

def Cursor.Cut (c : Cursor) (offset : Nat) (before rest : List Char) : Prop :=
  c.rest = before ++ rest ∧ offset = c.offset + bytes before

def Cursor.Behind (c : Cursor) (l : Lexeme) (before : List Char) : Prop :=
  (∃ rest, c.Cut l.stop before rest) ∧ ∃ front word, before = front ++ word ∧ l.token.Spelled word

namespace Cursor
variable {c d : Cursor} {offset : Nat} {taken before rest : List Char}

theorem Cut.later (cut : d.Cut offset before rest) (own : c.Cut d.offset taken d.rest) :
    c.Cut offset (taken ++ before) rest := by
  refine ⟨?_,?_⟩
  · rw [own.1,cut.1,List.append_assoc]
  · rw [cut.2,own.2,bytes_append,Nat.add_assoc]

theorem next_cut (c : Cursor) : c.Cut c.next.2.offset (c.gap ++ c.word) c.next.2.rest := c.next_taken

theorem lexed_behind_token (c : Cursor) : ∀ l ∈ c.lexed.lexemes, ∃ before, c.Behind l before := by
  fun_induction lexed c with
  | case1 c token d taken after ih =>
    have own := c.next_cut
    rw [taken] at own
    intro l member
    rcases List.mem_cons.mp member with rfl | later
    · exact ⟨c.gap ++ c.word,⟨d.rest,own⟩,c.gap,c.word,rfl,next_spelled taken⟩
    · obtain ⟨before,⟨rest,cut⟩,front,word,rfl,spelled⟩ := ih l later
      exact ⟨_,⟨rest,cut.later own⟩,c.gap ++ c.word ++ front,word,(List.append_assoc ..).symm,spelled⟩
  | case2 | case3 => exact fun l impossible => (by cases impossible)

theorem lexed_finished {length : Nat} (finished : c.lexed.ending = .finished length) : c.Cut length c.rest [] := by
  fun_induction lexed c with
  | case1 c token d taken after ih =>
    have own := c.next_cut
    rw [taken] at own
    rw [own.1]
    exact (ih finished).later own
  | case2 c d taken =>
    cases finished
    obtain ⟨blank,_,rfl⟩ := next_ended taken
    rw [← blank]
    exact ⟨(List.append_nil _).symm,rfl⟩
  | case3 => cases finished

theorem lexed_refused {error : TokenError} (rejected : c.lexed.ending = .rejected error) :
    ∃ before first more, c.Cut error.offset before (first :: more) ∧ isBlank first = false ∧
      error.Starts (first :: more) := by
  fun_induction lexed c with
  | case1 c token d taken after ih =>
    have own := c.next_cut
    rw [taken] at own
    obtain ⟨before,first,more,cut,plain⟩ := ih rejected
    exact ⟨_,first,more,cut.later own,plain⟩
  | case2 => cases rejected
  | case3 c error d taken =>
    cases rejected
    have own := c.next_cut
    rw [taken] at own
    obtain ⟨_,_,⟨first,more,behind,plain⟩,starts,place,_⟩ := next_refused taken
    rw [behind] at own starts
    rw [← place] at own
    exact ⟨_,first,more,own,plain,starts⟩

end Cursor

namespace Parsing
variable {p q : Parsing} {l : Lexeme} {fault : Fault}

-- Where an operand is expected a token is taken before it is judged. Behind an operand it is only
-- looked at, apart from a closing bracket.
def takes (p : Parsing) (l : Lexeme) : Bool :=
  p.operand.isNone || match l.token with
    | .closeBracket => true
    | _ => false

def consumed : Parsing → List Lexeme → List Lexeme
  | _, [] => []
  | p, l :: rest =>
    match p.step l with
    | .ok q => l :: q.consumed rest
    | .error _ => if p.takes l then [l] else []

theorem nest_reason {frame : Frame} {stop : Nat} (stopped : p.nest frame stop = .error fault) :
    fault = ⟨.tooDeep,stop⟩ := by
  unfold nest at stopped
  split at stopped
  · cases stopped
    rfl
  · cases stopped

theorem step_stops (stopped : p.step l = .error fault) :
    fault.offset = (if p.takes l then l.stop else p.stop) ∧
      (fault.reason = .tooDeep ∨ fault.reason = .unexpected l.token ∨ fault.reason = .notBinary ∨
        fault.reason = .expectedOperator l.token) := by
  obtain ⟨token,stop⟩ := l
  unfold step at stopped
  unfold takes
  cases here : p.operand with
  | none =>
    rw [here] at stopped
    have nested : ∀ frame, p.nest frame stop = .error fault → fault.offset = stop ∧ fault.reason = .tooDeep := by
      intro frame failed
      rw [nest_reason failed]
      exact ⟨rfl,rfl⟩
    cases token with
    | value x => cases stopped
    | identifier name =>
      rw [show p.operandStep _ = p.step _ by rw [step,here],step_identifier here] at stopped
      cases stopped
    | openBracket => exact ⟨(nested _ stopped).1,.inl (nested _ stopped).2⟩
    | closeBracket => cases stopped; exact ⟨rfl,.inr (.inl rfl)⟩
    | operator op => cases op with
      | not => exact ⟨(nested _ stopped).1,.inl (nested _ stopped).2⟩
      | binary op => cases op with
        | subtract => exact ⟨(nested _ stopped).1,.inl (nested _ stopped).2⟩
        | _ => cases stopped; exact ⟨rfl,.inr (.inl rfl)⟩
  | some e =>
    rw [here] at stopped
    unfold operatorStep at stopped
    cases token with
    | value | identifier | openBracket => cases stopped; exact ⟨rfl,.inr (.inr (.inr rfl))⟩
    | closeBracket =>
      dsimp only at stopped
      split at stopped
      · cases stopped
      · cases stopped
        exact ⟨rfl,.inr (.inl rfl)⟩
    | operator op => cases op with
      | not => cases stopped; exact ⟨rfl,.inr (.inr (.inl rfl))⟩
      | binary op => cases stopped

end Parsing

-- The place of a fault by its reason, where the tokens that were taken are the given ones and the
-- text is cut as given. A fault that is told at a token is behind the last one taken.
inductive Fault.Placed (lexed : Lexed) (taken : List Lexeme) (before rest : List Char) : Fault → Prop where
  | rejected {error : TokenError} {first : Char} {more : List Char} (ends : lexed.ending = .rejected error)
      (all : taken = lexed.lexemes) (here : rest = first :: more) (plain : isBlank first = false)
      (starts : error.Starts rest) : Placed lexed taken before rest ⟨.token error,error.offset⟩
  | ended {length : Nat} {reason : Reason} (ends : lexed.ending = .finished length) (all : taken = lexed.lexemes)
      (unfinished : reason = .unexpectedEnd ∨ reason = .unclosed) (here : rest = []) :
      Placed lexed taken before rest ⟨reason,length⟩
  | told {last : Lexeme} {reason : Reason} {front word : List Char} (only : taken <+: lexed.lexemes)
      (behind : taken.getLast? = some last)
      (judged : reason = .tooDeep ∨ reason = .notBinary ∨ ∃ found, reason = .unexpected found ∨ reason = .expectedOperator found)
      (written : before = front ++ word) (spelled : last.token.Spelled word) :
      Placed lexed taken before rest ⟨reason,last.stop⟩

namespace Parsing
variable {p q : Parsing} {fault : Fault} {ending : Ending}

theorem consumed_start {l : Lexeme} {rest : List Lexeme} (empty : p.operand = none) : p.consumed (l :: rest) ≠ [] := by
  have takes : p.takes l = true := by simp [takes,empty]
  unfold consumed
  split
  · exact List.cons_ne_nil _ _
  · rw [if_pos takes]
    exact List.cons_ne_nil _ _

theorem consumed_prefix (p : Parsing) (lexemes : List Lexeme) : p.consumed lexemes <+: lexemes := by
  induction lexemes generalizing p with
  | nil => exact List.prefix_rfl
  | cons l rest ih =>
    unfold consumed
    split
    · rename_i q stepped
      exact List.cons_prefix_cons.mpr ⟨rfl,ih q⟩
    · split
      · exact ⟨rest,rfl⟩
      · exact List.nil_prefix

theorem finish_stops (stopped : p.finish ending = .error fault) :
    (∃ error, ending = .rejected error ∧ fault = ⟨.token error,error.offset⟩) ∨
      ∃ length, ending = .finished length ∧ fault.offset = length ∧
        (fault.reason = .unexpectedEnd ∨ fault.reason = .unclosed) := by
  unfold finish at stopped
  split at stopped
  · cases stopped
    exact .inl ⟨_,rfl,rfl⟩
  · right
    split at stopped
    · cases stopped
      exact ⟨_,rfl,rfl,.inl rfl⟩
    · split at stopped
      · cases stopped
      · cases stopped
        exact ⟨_,rfl,rfl,.inr rfl⟩

theorem run_stops {lexemes : List Lexeme} (stopped : (p.run ending lexemes).outcome = .error fault) :
    (p.consumed lexemes = lexemes ∧ ∃ q : Parsing, q.finish ending = .error fault) ∨
      (p.operand = none → p.consumed lexemes ≠ []) ∧
        fault.offset = ((p.consumed lexemes).getLast?.map Lexeme.stop).getD p.stop ∧
        (fault.reason = .tooDeep ∨ fault.reason = .notBinary ∨
          ∃ found, fault.reason = .unexpected found ∨ fault.reason = .expectedOperator found) := by
  induction lexemes generalizing p with
  | nil => exact .inl ⟨rfl,p,stopped⟩
  | cons l rest ih =>
    have some : p.operand = none → p.consumed (l :: rest) ≠ [] := consumed_start
    unfold run at stopped
    unfold consumed at some ⊢
    cases stepped : p.step l with
    | ok q =>
      simp only [stepped] at stopped some ⊢
      obtain ⟨_,stop⟩ := step_ok stepped
      rcases ih stopped with ⟨all,ended⟩ | ⟨_,place,reason⟩
      · exact .inl ⟨by rw [all],ended⟩
      · refine .inr ⟨some,?_,reason⟩
        rw [place,stop]
        cases q.consumed rest with
        | nil => rfl
        | cons next others => simp only [List.getLast?_cons,Option.map_some,Option.getD_some]
    | error other =>
      simp only [stepped] at stopped some ⊢
      cases stopped
      obtain ⟨place,reason⟩ := step_stops stepped
      refine .inr ⟨some,?_,by grind⟩
      rw [place]
      cases p.takes l <;> rfl

end Parsing

section
variable {text expression : String} {fault : Fault}

theorem Cursor.Cut.valid {offset : Nat} {before rest : List Char}
    (cut : (Cursor.start text.toList).Cut offset before rest) : String.Pos.Raw.IsValid text ⟨offset⟩ := by
  rw [← text.ofList_toList,String.Pos.Raw.isValid_ofList]
  refine ⟨before.length,?_⟩
  have split : text.toList = before ++ rest := cut.1
  have offset : offset = bytes before := cut.2.trans (Nat.zero_add _)
  rw [split,List.take_left,bytes_ofList]
  exact offset

theorem parse_placed (stopped : (parse text).outcome = .error fault) :
    let c := Cursor.start text.toList
    ∃ before rest, c.Cut fault.offset before rest ∧
      fault.Placed c.lexed (Parsing.start.consumed c.lexed.lexemes) before rest := by
  intro c
  rcases Parsing.run_stops stopped with ⟨all,q,ended⟩ | ⟨some,place,reason⟩
  · rcases Parsing.finish_stops ended with ⟨error,ends,rfl⟩ | ⟨length,ends,rfl,reason⟩
    · obtain ⟨before,first,more,cut,plain,starts⟩ := Cursor.lexed_refused ends
      exact ⟨before,_,cut,.rejected ends all rfl plain starts⟩
    · exact ⟨_,[],Cursor.lexed_finished ends,.ended ends all reason rfl⟩
  · have only := Parsing.start.consumed_prefix c.lexed.lexemes
    cases behind : (Parsing.start.consumed c.lexed.lexemes).getLast? with
    | none => exact absurd (List.getLast?_eq_none_iff.mp behind) (some rfl)
    | some last =>
      rw [behind] at place
      obtain ⟨reason,offset⟩ := fault
      cases place
      obtain ⟨before,⟨rest,cut⟩,front,word,written,spelled⟩ :=
        c.lexed_behind_token last (only.subset (List.mem_of_getLast? behind))
      exact ⟨before,rest,cut,.told only behind reason written spelled⟩

theorem check_fault (told : check text = .error (.malformed expression fault)) :
    expression = text ∧ (parse text).outcome = .error fault := by
  unfold check at told
  split at told
  · cases told
  · rename_i stopped
    cases told
    exact ⟨rfl,stopped⟩

theorem evaluate_fault {σ : Type} {source : Source σ} {s : σ}
    (told : (evaluate source text s).1 = .error (.malformed expression fault)) :
    expression = text ∧ (parse text).outcome = .error fault := by
  unfold evaluate at told
  split at told
  · split at told <;> cases told
  · rename_i names found stopped
    split at told
    · cases told
      exact ⟨rfl,by rw [stopped]⟩
    · cases told

end

-- The place lies between two characters of the text or at an end. The star stands behind two
-- blanks and one more for each character before it.
theorem malformed_placed (text : String) (fault : Fault) (expression : String)
    (told : check text = .error (.malformed expression fault) ∨
      ∃ (σ : Type) (source : Source σ) (s : σ), (evaluate source text s).1 = .error (.malformed expression fault)) :
    let c := Cursor.start text.toList
    fault.offset ≤ text.utf8ByteSize ∧ String.Pos.Raw.IsValid text ⟨fault.offset⟩ ∧
    ∃ before rest, text.toList = before ++ rest ∧ fault.offset = bytes before ∧
      fault.Placed c.lexed (Parsing.start.consumed c.lexed.lexemes) before rest ∧
      charactersBefore? fault.offset text.toList = some before ∧
      (ExpressionError.malformed expression fault).message = fault.reason.message ++ "\n  " ++ text ++ "\n" ++
        String.ofList (List.replicate (2 + before.length) ' ') ++ "*" := by
  intro c
  obtain ⟨rfl,stopped⟩ : expression = text ∧ (parse text).outcome = .error fault := by
    rcases told with checked | ⟨σ,source,s,evaluated⟩
    · exact check_fault checked
    · exact evaluate_fault evaluated
  obtain ⟨before,rest,cut,placed⟩ := parse_placed stopped
  have split : expression.toList = before ++ rest := cut.1
  have offset : fault.offset = bytes before := cut.2.trans (Nat.zero_add _)
  have counted : charactersBefore? fault.offset expression.toList = some before := by
    rw [split,offset,charactersBefore_bytes]
  refine ⟨cut.valid.le_utf8ByteSize,cut.valid,before,rest,split,offset,placed,counted,?_⟩
  have blanks : String.ofList (List.replicate (2 + before.length) ' ') =
      "  " ++ String.ofList (List.replicate before.length ' ') := by
    rw [← List.replicate_append_replicate,String.ofList_append]
    rfl
  simp only [ExpressionError.message,Fault.message,column,counted,blanks,String.append_assoc]
  rfl

theorem malformed_placed_level :
    let text := "\u00a0\u00a02 level"
    ∃ fault before, check text = .error (.malformed text fault) ∧ fault.offset = 5 ∧
      charactersBefore? fault.offset text.toList = some before ∧ before.length = 3 ∧
      (ExpressionError.malformed text fault).message = fault.reason.message ++ "\n  " ++ text ++ "\n     *" := by
  intro text
  have place : (match check text with | .error (.malformed _ fault) => fault.offset | _ => 0) = 5 := by decide +kernel
  have count : (charactersBefore? 5 text.toList).map List.length = some 3 := by decide +kernel
  cases checked : check text with
  | ok => rw [checked] at place; cases place
  | error error =>
    rw [checked] at place
    cases error with
    | lookup expression error => cases place
    | malformed expression fault =>
      obtain ⟨_,_,before,rest,_,_,_,counted,message⟩ := malformed_placed text fault expression (.inl checked)
      obtain ⟨rfl,_⟩ := check_fault checked
      have length : before.length = 3 := by
        rw [show fault.offset = 5 from place] at counted
        rw [counted] at count
        exact Option.some.inj count
      refine ⟨fault,before,rfl,place,counted,length,?_⟩
      rw [message,length,String.append_assoc,String.append_assoc]
      rfl

end DeferredAttributes.Expression
