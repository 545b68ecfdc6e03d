import Mathlib.Data.List.Forall2
import DeferredAttributes.Proofs.Expression.Malformed
import DeferredAttributes.Proofs.Expression.Pieces

-- The blanks between the tokens of a text are no part of its meaning: nothing behind the tokens
-- sees them, apart from the place that an error names.
namespace DeferredAttributes.Expression
open Text

def spread : List (List Char) → List (List Char) → List Char → List Char
  | gap :: gaps, word :: words, behind => gap ++ word ++ spread gaps words behind
  | _, _, behind => behind

def Cursor.words (c : Cursor) : List (List Char) := (c.pieces c.lexed.lexemes.length).map Prod.snd

def words (text : String) : List (List Char) := (Cursor.start text.toList).words

def ExpressionError.cause : ExpressionError → Reason ⊕ LookupError
  | .malformed _ fault => .inl fault.reason
  | .lookup _ error => .inr error

theorem Makes.apart {first : Char} {word more : List Char} {token : Token}
    (makes : Makes first word token (word.length + 1)) (apart : ∀ c ∈ more.head?, isBlank c = true) :
    Makes first (word ++ more) token (word.length + 1) := by
  have alone : lexeme 0 first word = .ok (token,word.length + 1) := lexeme_makes.mpr makes
  rw [← lexeme_ended (fun c next => .blank (apart c next)) 0 first word] at alone
  exact lexeme_makes.mp alone

theorem spread_head (gaps words : List (List Char)) (behind : List Char)
    (some : ∀ gap ∈ gaps, gap ≠ []) (blank : ∀ gap ∈ behind :: gaps, ∀ c ∈ gap, isBlank c = true) :
    ∀ c ∈ (spread gaps words behind).head?, isBlank c = true := by
  intro c first
  cases gaps with
  | nil => exact blank behind List.mem_cons_self c (List.mem_of_mem_head? first)
  | cons gap gaps =>
    cases words with
    | nil => exact blank behind List.mem_cons_self c (List.mem_of_mem_head? first)
    | cons word words =>
      obtain ⟨own,rest,rfl⟩ := List.exists_cons_of_ne_nil (some gap List.mem_cons_self)
      cases first
      exact blank _ (List.mem_cons_of_mem _ List.mem_cons_self) c List.mem_cons_self

namespace Cursor
variable {c d : Cursor} {token : Token} {gap more : List Char}

theorem skipBlanks_append (blank : ∀ x ∈ gap, isBlank x = true) (rest : List Char) (offset : Nat) :
    skipBlanks ⟨gap ++ rest,offset⟩ = skipBlanks ⟨rest,offset + bytes gap⟩ := by
  induction gap generalizing offset with
  | nil => rfl
  | cons first gap ih =>
    obtain ⟨own,others⟩ := List.forall_mem_cons.mp blank
    rw [List.cons_append,skipBlanks_cons own,ih others,bytes,Nat.add_assoc]

theorem next_respaced (taken : c.next = (.ok (some token),d)) (blank : ∀ x ∈ gap, isBlank x = true)
    (apart : ∀ x ∈ more.head?, isBlank x = true) (offset : Nat) :
    next ⟨gap ++ c.word ++ more,offset⟩ = (.ok (some token),⟨more,offset + bytes gap + bytes c.word⟩) := by
  obtain ⟨⟨first,rest,shape,plain,makes⟩,_⟩ := next_word taken
  rw [shape,List.length_cons] at makes
  have found : lexeme (offset + bytes gap) first (rest ++ more) = .ok (token,rest.length + 1) :=
    lexeme_makes.mpr (makes.apart apart)
  unfold next
  rw [List.append_assoc,skipBlanks_append blank,shape,List.cons_append,skipBlanks_token plain]
  simp only [found,advance,← List.cons_append]
  rw [List.drop_left' (by rfl),List.take_left' (by rfl)]

theorem lexed_behind {length : Nat} (finished : c.lexed.ending = .finished length) :
    ∀ x ∈ (c.after c.lexed.lexemes.length).rest, isBlank x = true := by
  fun_induction lexed c with
  | case1 c token d taken after ih =>
    rw [List.length_cons,Cursor.after,taken]
    exact ih finished
  | case2 c d taken =>
    rw [List.length_nil,Cursor.after,(next_ended taken).1]
    exact c.gap_blank
  | case3 => cases finished

theorem pieces_spread (c : Cursor) (n : Nat) :
    c.rest = spread ((c.pieces n).map Prod.fst) ((c.pieces n).map Prod.snd) (c.after n).rest := by
  induction n generalizing c with
  | zero => rfl
  | succ n ih =>
    unfold pieces after
    rw [List.map_cons,List.map_cons,spread,← ih c.next.2]
    exact c.next_taken.1

theorem pieces_blank (c : Cursor) (n : Nat) : ∀ gap ∈ (c.pieces n).map Prod.fst, ∀ x ∈ gap, isBlank x = true := by
  induction n generalizing c with
  | zero => exact fun gap impossible => (by cases impossible)
  | succ n ih => exact List.forall_mem_cons.mpr ⟨c.gap_blank,ih c.next.2⟩

theorem words_token (taken : c.next = (.ok (some token),d)) : c.words = c.word :: d.words := by
  unfold words
  rw [lexed_token taken,List.length_cons,pieces,taken,List.map_cons]

theorem lexed_spelled (c : Cursor) : List.Forall₂ Token.Spelled (c.lexed.lexemes.map Lexeme.token) c.words := by
  fun_induction lexed c with
  | case1 c token d taken after ih =>
    rw [words_token taken]
    exact .cons (next_spelled taken) ih
  | case2 c d taken =>
    rw [words,lexed_end taken]
    exact .nil
  | case3 c error d taken =>
    rw [words,lexed_rejected taken]
    exact .nil

theorem lexed_spread {length : Nat} (finished : c.lexed.ending = .finished length) (gaps : List (List Char))
    (behind : List Char) (count : gaps.length = c.words.length)
    (blank : ∀ gap ∈ behind :: gaps, ∀ x ∈ gap, isBlank x = true) (some : ∀ gap ∈ gaps.tail, gap ≠ []) (offset : Nat) :
    (lexed ⟨spread gaps c.words behind,offset⟩).lexemes.map Lexeme.token = c.lexed.lexemes.map Lexeme.token ∧
      ∃ length, (lexed ⟨spread gaps c.words behind,offset⟩).ending = .finished length := by
  fun_induction lexed c generalizing gaps offset with
  | case1 c token d taken after ih =>
    rw [words_token taken] at count ⊢
    cases gaps with
    | nil => cases count
    | cons gap gaps =>
      obtain ⟨last,own,others⟩ : (∀ x ∈ behind, isBlank x = true) ∧ (∀ x ∈ gap, isBlank x = true) ∧
          ∀ gap ∈ gaps, ∀ x ∈ gap, isBlank x = true := by simpa using blank
      have later : ∀ gap ∈ behind :: gaps, ∀ x ∈ gap, isBlank x = true := List.forall_mem_cons.mpr ⟨last,others⟩
      obtain ⟨same,ends⟩ := ih finished gaps (Nat.succ.inj count) later
        (fun gap member => some gap (List.mem_of_mem_tail member)) (offset + bytes gap + bytes c.word)
      rw [spread,lexed_token (next_respaced taken own (spread_head gaps d.words behind some later) offset)]
      exact ⟨congrArg (token :: ·) same,ends⟩
  | case2 c d taken =>
    have nothing : c.words = [] := by
      rw [words,lexed_end taken]
      rfl
    have skipped := skipBlanks_append (blank behind List.mem_cons_self) [] offset
    have none : next ⟨behind,offset⟩ = (.ok none,⟨[],offset + bytes behind⟩) := by
      rw [List.append_nil] at skipped
      unfold next
      rw [skipped]
      rfl
    rw [nothing] at count ⊢
    rw [List.length_eq_zero_iff.mp count,spread,lexed_end none]
    · exact ⟨rfl,_,rfl⟩
    · simp
  | case3 => cases finished

end Cursor

namespace Parsing

def moved (p : Parsing) (stop : Nat) : Parsing := { p with stop := stop }

inductive Alike (stop : Nat) : Except Fault Parsing → Except Fault Parsing → Prop where
  | taken (q : Parsing) : Alike stop (.ok q) (.ok (q.moved stop))
  | stopped (reason : Reason) (here there : Nat) : Alike stop (.error ⟨reason,here⟩) (.error ⟨reason,there⟩)

theorem nest_moved (p : Parsing) (frame : Frame) (stop one two : Nat) :
    Alike two (p.nest frame one) ((p.moved stop).nest frame two) := by
  unfold nest moved
  split
  · exact .stopped ..
  · exact .taken _

theorem step_moved (p : Parsing) (token : Token) (stop one two : Nat) :
    Alike two (p.step ⟨token,one⟩) ((p.moved stop).step ⟨token,two⟩) := by
  cases here : p.operand with
  | none =>
    have also : (p.moved stop).operand = none := here
    cases token with
    | value x =>
      rw [step_value here,step_value also]
      exact .taken _
    | identifier name =>
      rw [step_identifier here,step_identifier also]
      exact .taken _
    | openBracket =>
      rw [step_bracket here,step_bracket also]
      exact p.nest_moved ..
    | closeBracket =>
      rw [step,step,here,also]
      exact .stopped ..
    | operator op =>
      have sign : ∀ op : PrefixOperator,
          Alike two (p.step ⟨.operator op.sign,one⟩) ((p.moved stop).step ⟨.operator op.sign,two⟩) := by
        intro op
        rw [step_sign here,step_sign also]
        exact p.nest_moved ..
      cases op with
      | not => exact sign .not
      | binary op =>
        cases op with
        | subtract => exact sign .negate
        | _ =>
          rw [step,step,here,also]
          exact .stopped ..
  | some e =>
    have also : (p.moved stop).operand = some e := here
    rw [step,step,here,also]
    cases token with
    | value | identifier | openBracket => exact .stopped ..
    | closeBracket =>
      unfold operatorStep moved
      dsimp only
      split
      · exact .taken _
      · exact .stopped ..
    | operator op =>
      cases op with
      | not => exact .stopped ..
      | binary op => exact .taken _

theorem finish_moved (p : Parsing) (stop one two : Nat) :
    ((p.moved stop).finish (.finished two)).mapError Fault.reason = (p.finish (.finished one)).mapError Fault.reason := by
  unfold finish moved
  dsimp only
  split
  · rfl
  · split <;> rfl

theorem run_moved (p : Parsing) (stop : Nat) {lexemes others : List Lexeme} (one two : Nat)
    (same : others.map Lexeme.token = lexemes.map Lexeme.token) :
    ((p.moved stop).run (.finished two) others).names = (p.run (.finished one) lexemes).names ∧
      ((p.moved stop).run (.finished two) others).outcome.mapError Fault.reason =
        (p.run (.finished one) lexemes).outcome.mapError Fault.reason := by
  induction lexemes generalizing p stop others with
  | nil =>
    rw [List.map_nil,List.map_eq_nil_iff] at same
    subst same
    exact ⟨rfl,p.finish_moved ..⟩
  | cons l rest ih =>
    obtain ⟨token,end1⟩ := l
    obtain ⟨⟨other,end2⟩,others,rfl,rfl,later⟩ := List.map_eq_cons_iff.mp same
    have alike := p.step_moved other stop end1 end2
    unfold run
    dsimp only at alike ⊢
    generalize p.step ⟨other,end1⟩ = here, (p.moved stop).step ⟨other,end2⟩ = there at alike
    cases alike with
    | taken q => exact ih q end2 later
    | stopped reason => exact ⟨rfl,rfl⟩

end Parsing

theorem mapError_cases {ε δ α : Type} {what : ε → δ} {one two : Except ε α}
    (alike : two.mapError what = one.mapError what) :
    (∃ a, one = .ok a ∧ two = .ok a) ∨ ∃ here there, one = .error here ∧ two = .error there ∧ what there = what here := by
  cases one with
  | ok a =>
    cases two with
    | ok b => cases alike; exact .inl ⟨a,rfl,rfl⟩
    | error => cases alike
  | error here =>
    cases two with
    | ok => cases alike
    | error there => exact .inr ⟨here,there,rfl,rfl,Except.error.inj alike⟩

theorem mapError_ok {ε δ α : Type} {what : ε → δ} {one two : Except ε α}
    (alike : two.mapError what = one.mapError what) (a : α) : two = .ok a ↔ one = .ok a := by
  rcases mapError_cases alike with ⟨b,rfl,rfl⟩ | ⟨here,there,rfl,rfl,_⟩
  · rfl
  · exact ⟨fun impossible => (by cases impossible),fun impossible => (by cases impossible)⟩

section
variable {one two : String} (whole : Tokenizes one) (also : Tokenizes two) (same : tokens two = tokens one)
include whole also same

theorem parse_alike : (parse two).names = (parse one).names ∧
    (parse two).outcome.mapError Fault.reason = (parse one).outcome.mapError Fault.reason := by
  obtain ⟨here,finished⟩ := whole
  obtain ⟨there,ended⟩ := also
  unfold parse
  dsimp only
  rw [finished,ended]
  exact Parsing.start.run_moved 0 here there same

theorem check_alike : (check two).mapError ExpressionError.cause = (check one).mapError ExpressionError.cause := by
  unfold check
  rcases mapError_cases (parse_alike whole also same).2 with ⟨e,here,there⟩ | ⟨here,there,one,two,reason⟩
  · rw [here,there]
  · rw [one,two]
    exact congrArg (fun reason => Except.error (Sum.inl reason)) reason

theorem evaluate_alike {σ : Type} (source : Source σ) (s : σ) :
    (evaluate source two s).1.mapError ExpressionError.cause = (evaluate source one s).1.mapError ExpressionError.cause ∧
      (evaluate source two s).2 = (evaluate source one s).2 := by
  obtain ⟨names,outcome⟩ := parse_alike whole also same
  unfold evaluate
  generalize parse one = first, parse two = second at names outcome
  obtain ⟨met,here⟩ := first
  obtain ⟨_,there⟩ := second
  cases names
  rcases mapError_cases outcome with ⟨e,rfl,rfl⟩ | ⟨here,there,rfl,rfl,reason⟩
  · dsimp only
    rcases e.eval source s with ⟨error | x,after⟩ <;> exact ⟨rfl,rfl⟩
  · dsimp only
    rcases askAll source met s with ⟨error | _,after⟩
    · exact ⟨rfl,rfl⟩
    · exact ⟨congrArg (fun reason => Except.error (Sum.inl reason)) reason,rfl⟩

end

-- Other blanks around the words of a text, none of the gaps between two of them empty, change
-- nothing but the expression and the place that an error shows.
theorem respaced_alike {text : String} (whole : Tokenizes text) :
    (∃ gaps behind, gaps.length = (words text).length ∧ (∀ gap ∈ behind :: gaps, ∀ c ∈ gap, isBlank c = true) ∧
      text.toList = spread gaps (words text) behind ∧ List.Forall₂ Token.Spelled (tokens text) (words text)) ∧
    ∀ gaps behind, gaps.length = (words text).length → (∀ gap ∈ behind :: gaps, ∀ c ∈ gap, isBlank c = true) →
      (∀ gap ∈ gaps.tail, gap ≠ []) →
      let respaced := String.ofList (spread gaps (words text) behind)
      Tokenizes respaced ∧ tokens respaced = tokens text ∧
      (check respaced = .ok () ↔ check text = .ok ()) ∧
      (check respaced).mapError ExpressionError.cause = (check text).mapError ExpressionError.cause ∧
      ∀ {σ : Type} (source : Source σ) (s : σ),
        (∀ x, (evaluate source respaced s).1 = .ok x ↔ (evaluate source text s).1 = .ok x) ∧
        (evaluate source respaced s).1.mapError ExpressionError.cause =
          (evaluate source text s).1.mapError ExpressionError.cause ∧
        (evaluate source respaced s).2 = (evaluate source text s).2 := by
  constructor
  · obtain ⟨length,finished⟩ := whole
    let c := Cursor.start text.toList
    let pieces := c.pieces c.lexed.lexemes.length
    refine ⟨pieces.map Prod.fst,(c.after c.lexed.lexemes.length).rest,?_,?_,c.pieces_spread _,c.lexed_spelled⟩
    · unfold words Cursor.words
      rw [List.length_map,List.length_map]
    · exact List.forall_mem_cons.mpr ⟨Cursor.lexed_behind finished,c.pieces_blank _⟩
  · intro gaps behind count blank some respaced
    obtain ⟨also,same⟩ : Tokenizes respaced ∧ tokens respaced = tokens text := by
      obtain ⟨length,finished⟩ := whole
      obtain ⟨same,ends⟩ := Cursor.lexed_spread finished gaps behind count blank some 0
      unfold Tokenizes tokens Cursor.start
      rw [String.toList_ofList]
      exact ⟨ends,same⟩
    have checked := check_alike whole also same
    refine ⟨also,same,mapError_ok checked (),checked,fun source s => ?_⟩
    obtain ⟨value,state⟩ := evaluate_alike whole also same source s
    exact ⟨mapError_ok value,value,state⟩

theorem respaced_alike_walk :
    Tokenizes "a<=-1*@x/../y" ∧ check "\u3000a\t<= -\u00a01\u2028* @x/../y" = .ok () ∧
    (evaluate (fun name log => (.ok 2,log ++ [name])) "\u3000a\t<= -\u00a01\u2028* @x/../y" []).2 = ["a","@x/../y"] := by
  have reached : (match (Cursor.start "a<=-1*@x/../y".toList).lexed.ending with | .finished length => length | _ => 0) = 13 := by
    decide +kernel
  have whole : Tokenizes "a<=-1*@x/../y" := by
    unfold Tokenizes
    cases ends : (Cursor.start "a<=-1*@x/../y".toList).lexed.ending with
    | finished length => exact ⟨length,rfl⟩
    | rejected =>
      rw [ends] at reached
      cases reached
  have split : words "a<=-1*@x/../y" = ["a".toList,"<=".toList,"-".toList,"1".toList,"*".toList,"@x/../y".toList] := by
    decide +kernel
  have blank : ([] :: ["\u3000".toList,"\t".toList," ".toList,"\u00a0".toList,"\u2028".toList," ".toList]).all
      (fun gap => gap.all isBlank) = true := by decide +kernel
  obtain ⟨_,_,accepts,_,evaluates⟩ := (respaced_alike whole).2
    ["\u3000".toList,"\t".toList," ".toList,"\u00a0".toList,"\u2028".toList," ".toList] []
    (by rw [split]; rfl) (by simpa only [List.all_eq_true] using blank) (by decide +kernel)
  rw [split] at accepts evaluates
  exact ⟨whole,accepts.mpr (check_isOk (by decide +kernel)),(evaluates _ []).2.2.trans (by decide +kernel)⟩

end DeferredAttributes.Expression
