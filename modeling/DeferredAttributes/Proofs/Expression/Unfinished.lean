import DeferredAttributes.Proofs.Expression.Accepted
import DeferredAttributes.Proofs.Expression.Continuing

-- What is wrong with a text is told at the first token that no accepted text has there, or at
-- the end of a text that can still become an accepted one.
namespace DeferredAttributes.Expression

def Reason.Unfinished (reason : Reason) : Prop :=
  reason.message = "unexpected end of expression" ∨ reason.message = "expected ')'"

section
variable {other : String} (start : String) (apart : start.toList.isPrefixOf other.toList = false)
include apart

theorem apart_of_start (rest : String) : start ++ rest ≠ other := by
  intro same
  have starts : start.toList <+: other.toList := ⟨rest.toList,by rw [← same,String.toList_append]⟩
  rw [List.isPrefixOf_iff_prefix.mpr starts] at apart
  cases apart

theorem apart_of_quoted (rest mark : String) : start ++ rest ++ mark ≠ other := by
  rw [String.append_assoc]
  exact apart_of_start start apart _

end

theorem Token.describe_end (token : Token) : token.describe ≠ "end of expression" := by
  cases token with
  | identifier name => exact apart_of_quoted "identifier '" (by decide) name "'"
  | value number => exact apart_of_start "value " (by decide) _
  | operator op => exact apart_of_quoted "operator '" (by decide) op.symbol "'"
  | openBracket | closeBracket => exact fun same => absurd same (by decide)

theorem TokenError.message_apart (error : TokenError) :
    error.message ≠ "unexpected end of expression" ∧ error.message ≠ "expected ')'" := by
  cases error with
  | unexpectedCharacter character offset =>
    exact ⟨apart_of_quoted "unexpected character '" (by decide) _ "'",
      apart_of_quoted "unexpected character '" (by decide) _ "'"⟩
  | invalidNumber literal offset =>
    exact ⟨apart_of_quoted "invalid numeric literal '" (by decide) literal "'",
      apart_of_quoted "invalid numeric literal '" (by decide) literal "'"⟩
  | emptyIdentifier offset =>
    have text : (emptyIdentifier offset).message = "identifier expected after marker" := rfl
    rw [text]
    decide

theorem Reason.unfinished_cases {reason : Reason} (unfinished : reason.Unfinished) :
    reason = .unexpectedEnd ∨ reason = .unclosed := by
  unfold Unfinished at unfinished
  cases reason with
  | unexpectedEnd => exact .inl rfl
  | unclosed => exact .inr rfl
  | token error => exact absurd unfinished (not_or.mpr error.message_apart)
  | tooDeep | notBinary => exact absurd unfinished (by decide)
  | unexpected found =>
    rcases unfinished with ending | bracket
    · exact absurd ((String.append_right_inj "unexpected ").mp ending) found.describe_end
    · exact absurd bracket (apart_of_start "unexpected " (by decide) _)
  | expectedOperator found =>
    rcases unfinished with ending | bracket
    · exact absurd ending (apart_of_start "expected operator, found " (by decide) _)
    · exact absurd bracket (apart_of_start "expected operator, found " (by decide) _)

namespace Parsing
variable {p : Parsing} {fault : Fault}

theorem step_finished {l : Lexeme} (stopped : p.step l = .error fault) : ¬fault.reason.Unfinished := by
  intro unfinished
  have ends := Reason.unfinished_cases unfinished
  have nested : ∀ frame stop, p.nest frame stop ≠ .error fault := by
    intro frame stop failed
    unfold nest at failed
    split at failed
    · cases failed
      simp at ends
    · cases failed
  unfold step operandStep operatorStep at stopped
  split at stopped
  · split at stopped
    all_goals first
      | exact nested _ _ stopped
      | cases stopped
    simp at ends
  · split at stopped
    · cases stopped
    · split at stopped
      · cases stopped
      · cases stopped
        simp at ends
    · cases stopped
      simp at ends
    · cases stopped
      simp at ends

theorem take_finished {lexemes : List Lexeme} (stopped : p.take lexemes = .error fault) : ¬fault.reason.Unfinished := by
  induction lexemes generalizing p with
  | nil => cases stopped
  | cons l rest ih =>
    cases stepped : p.step l with
    | error other =>
      rw [take_cons_stopped stepped] at stopped
      cases stopped
      exact step_finished stepped
    | ok q =>
      rw [take_cons stepped] at stopped
      exact ih stopped

end Parsing

section
variable {text : String} {fault : Fault}

theorem toList_extended (text more : String) : (text ++ " " ++ more).toList = text.toList ++ ' ' :: more.toList := by
  rw [String.toList_append,String.toList_append,List.append_assoc]
  rfl

theorem start_extended (text more : String) :
    Cursor.start (text ++ " " ++ more).toList = (Cursor.start text.toList).extended more.toList := by
  rw [toList_extended]
  rfl

theorem parse_rejected (stopped : (parse text).outcome = .error fault) :
    (¬fault.reason.Unfinished ∧ ∀ more, (parse (text ++ " " ++ more)).outcome = .error fault) ∨
      ∃ q length, Parsing.start.take (Cursor.start text.toList).lexed.lexemes = .ok q ∧
        (Cursor.start text.toList).lexed.ending = .finished length ∧ q.finish (.finished length) = .error fault := by
  unfold parse at stopped ⊢
  simp only [start_extended]
  dsimp only at stopped
  generalize Cursor.start text.toList = c at *
  cases taken : Parsing.start.take c.lexed.lexemes with
  | error other =>
    rw [Parsing.run_stopped taken] at stopped
    cases stopped
    refine .inl ⟨Parsing.take_finished taken,fun more => ?_⟩
    cases ending : c.lexed.ending with
    | rejected error =>
      rw [Cursor.lexed_extended_rejected ending]
      exact Parsing.run_stopped taken _
    | finished length =>
      rw [Cursor.lexed_extended_finished ending]
      exact Parsing.run_stopped (Parsing.take_append_stopped taken) _
  | ok q =>
    rw [Parsing.run_taken taken] at stopped
    cases ending : c.lexed.ending with
    | rejected error =>
      rw [ending] at stopped
      cases stopped
      refine .inl ⟨not_or.mpr error.message_apart,fun more => ?_⟩
      rw [Cursor.lexed_extended_rejected ending,Parsing.run_taken taken,ending]
      rfl
    | finished length =>
      rw [ending] at stopped
      exact .inr ⟨q,length,rfl,rfl,stopped⟩

end

theorem Opened.closed {frames : List Frame} {before own : List Token} {nesting level : Nat} {e : Expr}
    (opened : Opened frames before) (derived : Derives nesting level own e) (low : 1 ≤ level) (high : level ≤ 6)
    (below : level ≤ 5 → Below level frames) (room : depth frames + nesting ≤ maxDepth) :
    ∃ count nesting' e', nesting' ≤ maxDepth ∧
      Derives nesting' 1 (before ++ own ++ List.replicate count .closeBracket) e' := by
  induction opened generalizing own nesting level e with
  | nil =>
    refine ⟨0,nesting,e,by simpa [depth] using room,?_⟩
    rw [List.replicate_zero,List.append_nil]
    exact derived.lower (Nat.le_refl 1) low high
  | @bracket frames tokens opened deeper ih =>
    rw [depth_nested rfl] at room
    obtain ⟨count,nesting',e',fits,whole⟩ := ih (.bracketed (derived.lower (Nat.le_refl 1) low high))
      (by decide) (Nat.le_refl 6) (fun impossible => absurd impossible (by decide)) (by omega)
    refine ⟨count + 1,nesting',e',fits,?_⟩
    rw [List.replicate_succ]
    simpa using whole
  | @unary frames tokens op opened deeper ih =>
    have top : level = 6 := by
      apply Classical.byContradiction
      intro lower
      exact below (by omega)
    subst top
    rw [depth_nested rfl] at room
    obtain ⟨count,nesting',e',fits,whole⟩ := ih (.signed op derived) (by decide) (Nat.le_refl 6)
      (fun impossible => absurd impossible (by decide)) (by omega)
    exact ⟨count,nesting',e',fits,by simpa using whole⟩
  | @binary frames tokens left nestingLeft l op opened outer first known ih =>
    obtain ⟨positive,bounded⟩ := precedence_bounds op
    have tighter : op.precedence + 1 ≤ level := by
      by_cases top : level ≤ 5
      · exact below top
      · omega
    rw [depth_binary] at room
    have second := derived.lower (Nat.le_add_left 1 op.precedence) tighter high
    obtain ⟨count,nesting',e',fits,whole⟩ := ih (.joined op first second) positive (by omega) (fun _ => outer) (by omega)
    exact ⟨count,nesting',e',fits,by simpa using whole⟩

theorem Cursor.lexed_closing (count offset : Nat) :
    (lexed ⟨List.replicate count ')',offset⟩).lexemes.map Lexeme.token = List.replicate count .closeBracket ∧
      ∃ length, (lexed ⟨List.replicate count ')',offset⟩).ending = .finished length := by
  induction count generalizing offset with
  | zero =>
    rw [lexed_end (d := ⟨[],offset⟩) rfl]
    exact ⟨rfl,_,rfl⟩
  | succ count ih =>
    have next : next ⟨List.replicate (count + 1) ')',offset⟩ =
        (.ok (some .closeBracket),⟨List.replicate count ')',offset + 1⟩) := by
      rw [List.replicate_succ]
      unfold Cursor.next
      rw [skipBlanks_token (by decide)]
      rfl
    obtain ⟨tokens,ending⟩ := ih (offset + 1)
    rw [lexed_token next]
    refine ⟨?_,ending⟩
    rw [List.map_cons,tokens,List.replicate_succ]

theorem Cursor.lexed_number (count offset : Nat) :
    (lexed ⟨'1' :: List.replicate count ')',offset⟩).lexemes.map Lexeme.token =
        .value (literalValue ['1']) :: List.replicate count .closeBracket ∧
      ∃ length, (lexed ⟨'1' :: List.replicate count ')',offset⟩).ending = .finished length := by
  have next : next ⟨'1' :: List.replicate count ')',offset⟩ =
      (.ok (some (.value (literalValue ['1']))),⟨List.replicate count ')',offset + 1⟩) := by
    have alone : (List.replicate count ')').takeWhile (fun c => !isBoundary c) = [] := by
      cases count with
      | zero => rfl
      | succ count => rfl
    unfold Cursor.next
    rw [skipBlanks_token (by decide)]
    simp only [lexeme,alone]
    rfl
  obtain ⟨tokens,ending⟩ := lexed_closing count (offset + 1)
  rw [lexed_token next]
  exact ⟨by rw [List.map_cons,tokens],ending⟩

section
variable {text : String} {length : Nat} (ending : (Cursor.start text.toList).lexed.ending = .finished length)
include ending

theorem tokens_extended {more : List Char} {added : List Token} {stop : Nat}
    (own : (Cursor.lexed ⟨more,length + 1⟩).lexemes.map Lexeme.token = added)
    (last : (Cursor.lexed ⟨more,length + 1⟩).ending = .finished stop) :
    tokens (text ++ " " ++ String.ofList more) = tokens text ++ added ∧
      Tokenizes (text ++ " " ++ String.ofList more) := by
  unfold tokens Tokenizes
  rw [start_extended,String.toList_ofList,Cursor.lexed_extended_finished ending,List.map_append,own]
  exact ⟨rfl,stop,last⟩

theorem check_extended {more : List Char} {added : List Token} {stop nesting : Nat} {e : Expr}
    (own : (Cursor.lexed ⟨more,length + 1⟩).lexemes.map Lexeme.token = added)
    (last : (Cursor.lexed ⟨more,length + 1⟩).ending = .finished stop)
    (derived : Derives nesting 1 (tokens text ++ added) e) (room : nesting ≤ maxDepth) :
    check (text ++ " " ++ String.ofList more) = .ok () := by
  obtain ⟨all,whole⟩ := tokens_extended ending own last
  rw [← all] at derived
  exact check_parse.mpr ⟨e,by rw [derived.parse room whole]⟩

-- Where all tokens of a text have been taken, something can be written behind it that makes it
-- an accepted one: a number, if an operand is missing, and the closing brackets.
theorem check_completed {q : Parsing} (taken : Parsing.start.take (Cursor.start text.toList).lexed.lexemes = .ok q) :
    ∃ more, check (text ++ " " ++ more) = .ok () := by
  have standing := Standing.start.take taken
  rw [List.nil_append] at standing
  change Standing q (tokens text) at standing
  generalize same : tokens text = before at standing
  cases standing with
  | waiting empty opened =>
    obtain ⟨count,nesting,e,room,derived⟩ := opened.closed (.value (literalValue ['1'])) (by decide) (Nat.le_refl 6)
      (fun impossible => absurd impossible (by decide)) opened.bound
    obtain ⟨own,stop,last⟩ := Cursor.lexed_number count (length + 1)
    rw [List.append_assoc,← same] at derived
    exact ⟨_,check_extended ending own last derived room⟩
  | holding here held below =>
    obtain ⟨opened,derived,room⟩ := held
    obtain ⟨count,nesting,e,fits,whole⟩ := opened.closed derived (by decide) (Nat.le_refl 6) (fun _ => below) room
    obtain ⟨own,stop,last⟩ := Cursor.lexed_closing count (length + 1)
    rw [← same] at whole
    exact ⟨_,check_extended ending own last whole fits⟩

end

-- A text that is rejected at its end is the beginning of an accepted one. What is rejected for
-- another reason stays so, at the same place, whatever is written behind it.
theorem check_rejects {text : String} {error : ExpressionError} (rejected : check text = .error error) :
    ∃ fault, error = .malformed text fault ∧
      (fault.reason.message = "unexpected end of expression" ∨ fault.reason.message = "expected ')'" →
        ∃ more, check (text ++ " " ++ more) = .ok ()) ∧
      (¬(fault.reason.message = "unexpected end of expression" ∨ fault.reason.message = "expected ')'") →
        ∀ more, check (text ++ " " ++ more) = .error (.malformed (text ++ " " ++ more) fault)) := by
  cases parsed : (parse text).outcome with
  | ok e =>
    rw [check_parse.mpr ⟨e,parsed⟩] at rejected
    cases rejected
  | error fault =>
    unfold check at rejected
    rw [parsed] at rejected
    cases rejected
    refine ⟨fault,rfl,?_⟩
    rcases parse_rejected parsed with ⟨other,stays⟩ | ⟨q,length,taken,ending,stopped⟩
    · refine ⟨fun unfinished => absurd unfinished other,fun _ more => ?_⟩
      unfold check
      rw [stays more]
    · refine ⟨fun _ => check_completed ending taken,fun other => absurd ?_ other⟩
      unfold Parsing.finish at stopped
      dsimp only at stopped
      split at stopped
      · cases stopped
        exact .inl rfl
      · split at stopped
        · cases stopped
        · cases stopped
          exact .inr rfl

theorem check_rejects_level :
    (∃ more, check ("2 * (level" ++ " " ++ more) = .ok ()) ∧
      ∃ fault, check "2 level" = .error (.malformed "2 level" fault) ∧
        ∀ more, check ("2 level" ++ " " ++ more) = .error (.malformed ("2 level" ++ " " ++ more) fault) := by
  have bracket : (match check "2 * (level" with
    | .error (.malformed _ fault) => fault.reason.message | _ => "") = "expected ')'" := by decide +kernel
  have operand : (match check "2 level" with
    | .error (.malformed _ fault) => fault.reason.message | _ => "") = "expected operator, found identifier 'level'" := by
    decide +kernel
  cases opened : check "2 * (level" with
  | ok => simp [opened] at bracket
  | error one =>
    cases doubled : check "2 level" with
    | ok => simp [doubled] at operand
    | error two =>
      obtain ⟨fault,rfl,goes,_⟩ := check_rejects opened
      obtain ⟨fault',rfl,_,stays⟩ := check_rejects doubled
      rw [opened] at bracket
      rw [doubled] at operand
      dsimp only at bracket operand
      refine ⟨goes (.inr bracket),fault',rfl,stays ?_⟩
      rw [operand]
      decide

end DeferredAttributes.Expression
