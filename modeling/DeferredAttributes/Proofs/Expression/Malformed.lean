import DeferredAttributes.Proofs.Expression.Asking
import DeferredAttributes.Proofs.Expression.Offsets

-- Whether and where a text is malformed does not depend on what its identifiers stand for, except
-- that one of them met before that place may have no number, which is told instead.
namespace DeferredAttributes.Expression

def tokensUpTo (text : String) (offset : Nat) : List Token :=
  ((Cursor.start text.toList).lexed.lexemes.filter fun l => l.stop ≤ offset).map Lexeme.token

def FirstMissing (answer : String → Except LookupError Float) (names : List String) (error : LookupError) : Prop :=
  ∃ before name after, names = before ++ name :: after ∧ (∀ other ∈ before, ∃ x, answer other = .ok x) ∧
    answer name = .error error

namespace Parsing
variable {p q : Parsing} {l : Lexeme} {fault : Fault}

theorem nest_ok {frame : Frame} {stop : Nat} (nested : p.nest frame stop = .ok q) : q.names = p.names ∧ q.stop = stop := by
  unfold nest at nested
  split at nested
  · cases nested
  · cases nested
    exact ⟨rfl,rfl⟩

theorem nest_fault {frame : Frame} {stop : Nat} (stopped : p.nest frame stop = .error fault) : fault.offset = stop := by
  unfold nest at stopped
  split at stopped
  · cases stopped
    rfl
  · cases stopped

theorem step_ok (stepped : p.step l = .ok q) : q.names = l.token.asked?.toList ++ p.names ∧ q.stop = l.stop := by
  obtain ⟨token,stop⟩ := l
  unfold step at stepped
  split at stepped
  · rename_i empty
    cases token with
    | value x => cases stepped; exact ⟨rfl,rfl⟩
    | identifier name =>
      rw [show p.operandStep _ = p.step _ by rw [step,empty],step_identifier empty] at stepped
      cases stepped
      exact ⟨rfl,rfl⟩
    | openBracket => exact nest_ok stepped
    | closeBracket => cases stepped
    | operator op =>
      cases op with
      | not => exact nest_ok stepped
      | binary op => cases op with
        | subtract => exact nest_ok stepped
        | _ => cases stepped
  · unfold operatorStep at stepped
    cases token with
    | value | identifier | openBracket => cases stepped
    | closeBracket =>
      dsimp only at stepped
      split at stepped
      · cases stepped
        exact ⟨rfl,rfl⟩
      · cases stepped
    | operator op => cases op with
      | not => cases stepped
      | binary op => cases stepped; exact ⟨rfl,rfl⟩

theorem step_fault (stopped : p.step l = .error fault) :
    fault.offset = p.stop ∨ fault.offset = l.stop ∧ l.token.asked? = none := by
  obtain ⟨token,stop⟩ := l
  unfold step at stopped
  split at stopped
  · rename_i empty
    right
    cases token with
    | value x => cases stopped
    | identifier name =>
      rw [show p.operandStep _ = p.step _ by rw [step,empty],step_identifier empty] at stopped
      cases stopped
    | openBracket => exact ⟨nest_fault stopped,rfl⟩
    | closeBracket => cases stopped; exact ⟨rfl,rfl⟩
    | operator op =>
      refine ⟨?_,rfl⟩
      cases op with
      | not => exact nest_fault stopped
      | binary op => cases op with
        | subtract => exact nest_fault stopped
        | _ => cases stopped; rfl
  · unfold operatorStep at stopped
    cases token with
    | value | identifier | openBracket => cases stopped; exact .inl rfl
    | closeBracket =>
      dsimp only at stopped
      split at stopped
      · cases stopped
      · cases stopped
        exact .inr ⟨rfl,rfl⟩
    | operator op => cases op with
      | not => cases stopped; exact .inl rfl
      | binary op => cases stopped

theorem finish_fault {ending : Ending} (stopped : p.finish ending = .error fault) : fault.offset = ending.offset := by
  unfold finish at stopped
  split at stopped
  · cases stopped
    rfl
  · split at stopped
    · cases stopped
      rfl
    · split at stopped
      · cases stopped
      · cases stopped
        rfl

theorem run_fault {ending : Ending} {lexemes : List Lexeme}
    (within : ∀ l ∈ lexemes, p.stop < l.stop ∧ l.stop ≤ ending.offset) (last : p.stop ≤ ending.offset)
    (ascending : lexemes.Pairwise fun one two => one.stop < two.stop)
    (stopped : (p.run ending lexemes).outcome = .error fault) :
    p.stop ≤ fault.offset ∧ (p.run ending lexemes).names =
      p.names.reverse ++ asked ((lexemes.filter fun l => l.stop ≤ fault.offset).map Lexeme.token) := by
  induction lexemes generalizing p with
  | nil =>
    rw [finish_fault stopped]
    exact ⟨last,(List.append_nil _).symm⟩
  | cons l rest ih =>
    obtain ⟨first,later⟩ := List.pairwise_cons.mp ascending
    obtain ⟨behind,before⟩ := within l List.mem_cons_self
    unfold run at stopped ⊢
    cases stepped : p.step l with
    | ok q =>
      simp only [stepped] at stopped ⊢
      obtain ⟨names,stop⟩ := step_ok stepped
      obtain ⟨reached,met⟩ := ih (p := q)
        (fun next member => ⟨stop ▸ first next member,(within next (List.mem_cons_of_mem _ member)).2⟩)
        (stop ▸ before) later stopped
      rw [stop] at reached
      refine ⟨Nat.le_trans (Nat.le_of_lt behind) reached,?_⟩
      cases found : l.token.asked? <;> simp [met,names,reached,asked,found]
    | error other =>
      simp only [stepped] at stopped ⊢
      cases stopped
      rcases step_fault stepped with here | ⟨there,unnamed⟩
      · have none : (l :: rest).filter (fun l => l.stop ≤ fault.offset) = [] := by
          rw [List.filter_eq_nil_iff]
          intro next member
          simpa [here] using (within next member).1
        exact ⟨Nat.le_of_eq here.symm,by simp [none,asked]⟩
      · have none : rest.filter (fun l => l.stop ≤ fault.offset) = [] := by
          rw [List.filter_eq_nil_iff]
          intro next member
          simpa [there] using first next member
        have one : (l :: rest).filter (fun l => l.stop ≤ fault.offset) = [l] := by
          rw [List.filter_cons_of_pos (by simp [there]),none]
        exact ⟨there ▸ Nat.le_of_lt behind,by simp [one,asked,unnamed]⟩

end Parsing

theorem parse_fault {text : String} {fault : Fault} (stopped : (parse text).outcome = .error fault) :
    (parse text).names = asked (tokensUpTo text fault.offset) := by
  have placed := (Cursor.start text.toList).lexed_placed
  exact (Parsing.run_fault (p := .start) placed.within placed.ending placed.ascending stopped).2

-- Identifiers with answers that do not change in the course of the questions.
section
variable {σ : Type} {source : Source σ} {answer : String → Except LookupError Float}

theorem askAll_answers (names : List String) (s : σ) :
    askAll source names s = match answers source names s with
      | (.ok _,s) => (.ok (),s)
      | (.error error,s) => (.error error,s) := by
  induction names generalizing s with
  | nil => rfl
  | cons name rest ih =>
    unfold askAll answers
    rcases source name s with ⟨error | x,next⟩
    · rfl
    · simp only [ih]
      rcases answers source rest next with ⟨error | numbers,after⟩ <;> rfl

theorem FirstMissing.missing {names : List String} {error : LookupError} (missing : FirstMissing answer names error) :
    ¬∀ name ∈ names, ∃ x, answer name = .ok x := by
  obtain ⟨before,name,after,rfl,_,failed⟩ := missing
  intro all
  obtain ⟨x,found⟩ := all name (by simp)
  simp [failed] at found

theorem FirstMissing.later {name : String} {rest : List String} {error : LookupError} {x : Float}
    (found : answer name = .ok x) (missing : FirstMissing answer rest error) :
    FirstMissing answer (name :: rest) error := by
  obtain ⟨before,other,after,split,fine,failed⟩ := missing
  exact ⟨name :: before,other,after,by simp [split],by simpa [found] using fine,failed⟩

variable (steady : ∀ name s, (source name s).1 = answer name)
include steady

theorem answers_steady_cases (names : List String) (s : σ) :
    (∀ name ∈ names, ∃ x, answer name = .ok x) ∧ (∃ numbers last, answers source names s = (.ok numbers,last)) ∨
      ∃ error last, FirstMissing answer names error ∧ answers source names s = (.error error,last) := by
  induction names generalizing s with
  | nil => exact .inl ⟨by simp,[],s,rfl⟩
  | cons name rest ih =>
    have own := steady name s
    cases asked : source name s with
    | mk result next =>
      cases result with
      | error error =>
        rw [asked] at own
        exact .inr ⟨error,next,⟨[],name,rest,rfl,by simp,own.symm⟩,answers_cons_error.mpr (.inl asked)⟩
      | ok x =>
        rw [asked] at own
        rcases ih next with ⟨fine,numbers,last,found⟩ | ⟨error,last,missing,failed⟩
        · exact .inl ⟨by simpa [own.symm] using fine,x :: numbers,last,
            answers_cons_ok.mpr ⟨x,next,numbers,asked,found,rfl⟩⟩
        · exact .inr ⟨error,last,missing.later own.symm,answers_cons_error.mpr (.inr ⟨x,next,asked,failed⟩)⟩

theorem evaluate_accepted {text : String} {e : Expr} (parsed : (parse text).outcome = .ok e) (s : σ) :
    (∀ name ∈ asked (tokens text), ∃ x, answer name = .ok x) ∧ (∃ x, (evaluate source text s).1 = .ok x) ∨
      ∃ error, FirstMissing answer (asked (tokens text)) error ∧
        (evaluate source text s).1 = .error (.lookup text error) := by
  rw [evaluate_answers parsed]
  rcases answers_steady_cases steady (asked (tokens text)) s with ⟨fine,numbers,last,found⟩ | ⟨error,last,missing,failed⟩
  · exact .inl ⟨fine,e.value numbers,by rw [found]⟩
  · exact .inr ⟨error,missing,by rw [failed]⟩

theorem evaluate_malformed {text : String} {fault : Fault} (stopped : (parse text).outcome = .error fault) (s : σ) :
    (∀ name ∈ asked (tokensUpTo text fault.offset), ∃ x, answer name = .ok x) ∧
        (evaluate source text s).1 = .error (.malformed text fault) ∨
      ∃ error, FirstMissing answer (asked (tokensUpTo text fault.offset)) error ∧
        (evaluate source text s).1 = .error (.lookup text error) := by
  have names := parse_fault stopped
  unfold evaluate
  generalize parse text = parsed at stopped names
  obtain ⟨met,outcome⟩ := parsed
  subst stopped
  subst names
  rcases answers_steady_cases steady (asked (tokensUpTo text fault.offset)) s with
    ⟨fine,numbers,last,found⟩ | ⟨error,last,missing,failed⟩
  · exact .inl ⟨fine,by simp [askAll_answers,found]⟩
  · exact .inr ⟨error,missing,by simp [askAll_answers,failed]⟩

theorem evaluate_ok {text : String} {s : σ} {x : Float} (done : (evaluate source text s).1 = .ok x) :
    (∃ e, (parse text).outcome = .ok e) ∧ ∀ name ∈ asked (tokens text), ∃ x, answer name = .ok x := by
  cases parsed : (parse text).outcome with
  | ok e =>
    rcases evaluate_accepted steady parsed s with ⟨fine,_⟩ | ⟨error,_,failed⟩
    · exact ⟨⟨e,rfl⟩,fine⟩
    · cases failed.symm.trans done
  | error fault =>
    rcases evaluate_malformed steady parsed s with ⟨_,failed⟩ | ⟨error,_,failed⟩ <;> cases failed.symm.trans done

-- An evaluation finds the fault that the check finds, or the first identifier without a number in
-- front of it.
theorem evaluate_checked (text : String) (s : σ) :
    let outcome := (evaluate source text s).1
    (check text = .ok () →
      (∀ expression fault, outcome ≠ .error (.malformed expression fault)) ∧
      ((∃ x, outcome = .ok x) ↔
        ∀ name, .identifier name ∈ tokens text → name ≠ "true" → name ≠ "false" → ∃ x, answer name = .ok x)) ∧
    (∀ error, check text = .error error → ∃ fault, error = .malformed text fault ∧
      ((∀ name ∈ asked (tokensUpTo text fault.offset), ∃ x, answer name = .ok x) ∧ outcome = .error error ∨
        ∃ missing, FirstMissing answer (asked (tokensUpTo text fault.offset)) missing ∧
          outcome = .error (.lookup text missing))) ∧
    ∀ expression fault, outcome = .error (.malformed expression fault) →
      check text = .error (.malformed expression fault) := by
  intro outcome
  cases parsed : (parse text).outcome with
  | ok e =>
    have accepted : check text = .ok () := check_parse.mpr ⟨e,parsed⟩
    have plain : (∀ name ∈ asked (tokens text), ∃ x, answer name = .ok x) ↔
        ∀ name, .identifier name ∈ tokens text → name ≠ "true" → name ≠ "false" → ∃ x, answer name = .ok x := by
      simp only [mem_asked,and_imp]
    have never : ∀ expression fault, outcome ≠ .error (.malformed expression fault) := by
      intro expression fault malformed
      rcases evaluate_accepted steady parsed s with ⟨_,x,done⟩ | ⟨error,_,failed⟩
      · cases done.symm.trans malformed
      · cases failed.symm.trans malformed
    refine ⟨fun _ => ⟨never,?_⟩,fun error rejected => ?_,fun expression fault malformed => absurd malformed (never _ _)⟩
    · rw [← plain]
      rcases evaluate_accepted steady parsed s with ⟨fine,x,done⟩ | ⟨error,missing,failed⟩
      · exact ⟨fun _ => fine,fun _ => ⟨x,done⟩⟩
      · refine ⟨?_,fun fine => absurd fine missing.missing⟩
        intro both
        obtain ⟨x,done⟩ := both
        cases done.symm.trans failed
    · rw [accepted] at rejected
      cases rejected
  | error fault =>
    have rejected : check text = .error (.malformed text fault) := by simp only [check,parsed]
    refine ⟨fun accepted => ?_,fun error same => ?_,fun expression other malformed => ?_⟩
    · rw [rejected] at accepted
      cases accepted
    · rw [rejected] at same
      cases same
      exact ⟨fault,rfl,evaluate_malformed steady parsed s⟩
    · rcases evaluate_malformed steady parsed s with ⟨_,stopped⟩ | ⟨error,_,failed⟩
      · cases stopped.symm.trans malformed
        exact rejected
      · cases failed.symm.trans malformed

end

theorem evaluate_checked_limit :
    let text := "fuel + limit * / rate"
    let answer : String → Except LookupError Float := fun name => if name = "limit" then .error (.unknown name) else .ok 2
    (∀ name (s : Unit), ((fun name s => (answer name,s) : Source Unit) name s).1 = answer name) ∧
      ∃ fault, check text = .error (.malformed text fault) ∧ asked (tokensUpTo text fault.offset) = ["fuel","limit"] ∧
        ∃ missing, FirstMissing answer ["fuel","limit"] missing ∧
          (evaluate (fun name s => (answer name,s)) text ()).1 = .error (.lookup text missing) := by
  intro text answer
  have steady : ∀ name (s : Unit), ((fun name s => (answer name,s) : Source Unit) name s).1 = answer name :=
    fun _ _ => rfl
  have place : (match check text with | .error (.malformed _ fault) => fault.offset | _ => 0) = 16 := by decide +kernel
  obtain ⟨_,rejected,_⟩ := evaluate_checked steady text ()
  cases checked : check text with
  | ok => rw [checked] at place; cases place
  | error error =>
    obtain ⟨fault,rfl,outcome⟩ := rejected error checked
    have offset : fault.offset = 16 := by rwa [checked] at place
    have met : asked (tokensUpTo text fault.offset) = ["fuel","limit"] := by
      rw [offset]
      decide +kernel
    rw [met] at outcome
    refine ⟨steady,fault,rfl,met,?_⟩
    rcases outcome with ⟨fine,_⟩ | stopped
    · obtain ⟨x,found⟩ := fine "limit" (by simp)
      cases found
    · exact stopped

end DeferredAttributes.Expression
