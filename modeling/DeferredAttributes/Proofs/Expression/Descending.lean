import DeferredAttributes.Proofs.Expression.Depth
import DeferredAttributes.Proofs.Expression.Malformed

-- The calls and the machine read alike: a call that is made where the machine stands ends where
-- the machine stands with one operand more, or with the error of the whole text.
namespace DeferredAttributes.Expression

namespace Parsing
variable {p q : Parsing} {c d : Cursor}

def readFrom (p : Parsing) (c : Cursor) : Parsed := p.run c.lexed.ending c.lexed.lexemes

theorem readFrom_step {token : Token} (taken : c.next = (.ok (some token),d))
    (stepped : p.step ⟨token,d.offset⟩ = .ok q) : p.readFrom c = q.readFrom d := by
  unfold readFrom
  rw [Cursor.lexed_token taken,run,stepped]

theorem readFrom_fault {token : Token} {fault : Fault} (taken : c.next = (.ok (some token),d))
    (stopped : p.step ⟨token,d.offset⟩ = .error fault) : p.readFrom c = ⟨p.names.reverse,.error fault⟩ := by
  unfold readFrom
  rw [Cursor.lexed_token taken,run,stopped]

theorem run_names (p : Parsing) (ending : Ending) (lexemes : List Lexeme) :
    ∃ more, (p.run ending lexemes).names = p.names.reverse ++ more := by
  induction lexemes generalizing p with
  | nil => exact ⟨[],(List.append_nil _).symm⟩
  | cons l rest ih =>
    rw [run]
    cases stepped : p.step l with
    | error fault => exact ⟨[],(List.append_nil _).symm⟩
    | ok next =>
      obtain ⟨more,names⟩ := ih next
      refine ⟨l.token.asked?.toList.reverse ++ more,?_⟩
      rw [← List.append_assoc,← List.reverse_append,← (step_ok stepped).1]
      exact names

theorem readFrom_rejected {error : TokenError} (taken : c.next = (.error error,d)) :
    p.readFrom c = ⟨p.names.reverse,.error ⟨.token error,error.offset⟩⟩ := by
  unfold readFrom
  rw [Cursor.lexed_rejected taken]
  rfl

theorem readFrom_end (taken : c.next = (.ok none,d)) :
    p.readFrom c = ⟨p.names.reverse,p.finish (.finished d.offset)⟩ := by
  unfold readFrom
  rw [Cursor.lexed_end taken]
  rfl

theorem step_expected {found : Token} {e : Expr} (here : p.operand = some e) (closing : found = .closeBracket → False)
    (binary : ∀ op, found = .operator (.binary op) → False) (not : found = .operator .not → False) (stop : Nat) :
    p.step ⟨found,stop⟩ = .error ⟨.expectedOperator found,p.stop⟩ := by
  cases found with
  | value | identifier | openBracket => simp only [step,here,operatorStep]
  | closeBracket => exact (closing rfl).elim
  | operator op =>
    cases op with
    | not => exact (not rfl).elim
    | binary op => exact (binary op rfl).elim

theorem step_unexpected {found : Token} (empty : p.operand = none) (value : ∀ x, found = .value x → False)
    (identifier : ∀ name, found = .identifier name → False) (bracket : found = .openBracket → False)
    (subtract : found = .operator (.binary .subtract) → False) (not : found = .operator .not → False) (stop : Nat) :
    p.step ⟨found,stop⟩ = .error ⟨.unexpected found,stop⟩ := by
  cases found with
  | value x => exact (value x rfl).elim
  | identifier name => exact (identifier name rfl).elim
  | openBracket => exact (bracket rfl).elim
  | closeBracket => simp only [step,empty,operandStep]
  | operator op =>
    cases op with
    | not => exact (not rfl).elim
    | binary op =>
      cases op with
      | subtract => exact (subtract rfl).elim
      | _ => simp only [step,empty,operandStep]

def joined (p : Parsing) (e : Expr) (frames : List Frame) : Parsing := { p with operand := some e, frames := frames }

end Parsing

def Ended (least : Nat) (c : Cursor) : Prop :=
  match c.next.1 with
  | .ok none | .ok (some .closeBracket) => True
  | .ok (some (.operator (.binary op))) => op.precedence < least
  | _ => False

-- Before a token that ends the right operand it makes no difference when the two are joined.
theorem Parsing.readFrom_joined {p : Parsing} {c : Cursor} {left right : Expr} {op : BinaryOperator} {frames : List Frame}
    (here : p.operand = some right) (waiting : p.frames = .binary left op :: frames)
    (ended : Ended (op.precedence + 1) c) :
    p.readFrom c = (p.joined (.binary op left right) frames).readFrom c := by
  have joins : ∀ tightness ≤ op.precedence,
      applyBinary tightness right p.frames = applyBinary tightness (.binary op left right) frames := by
    intro tightness most
    rw [waiting,applyBinary_joins most]
  have same : ∀ {token : Token} {d : Cursor}, c.next = (.ok (some token),d) →
      p.step ⟨token,d.offset⟩ = (p.joined (.binary op left right) frames).step ⟨token,d.offset⟩ →
        p.readFrom c = (p.joined (.binary op left right) frames).readFrom c := by
    intro token d taken stepped
    unfold readFrom
    rw [Cursor.lexed_token taken,run,run,stepped]
    rfl
  unfold Ended at ended
  rcases taken : c.next with ⟨_ | (_ | token),d⟩ <;> rw [taken] at ended
  · cases ended
  · rw [readFrom_end taken,readFrom_end taken]
    simp only [finish,here,joined,joins 0 (Nat.zero_le _)]
  · cases token with
    | value | identifier | openBracket => cases ended
    | closeBracket =>
      apply same taken
      simp only [step,here,joined,operatorStep,joins 0 (Nat.zero_le _)]
      rfl
    | operator other =>
      cases other with
      | not => cases ended
      | binary other =>
        apply same taken
        simp only [step,here,joined,operatorStep,joins other.precedence (Nat.le_of_lt_succ ended)]

section
variable {σ : Type} (text : String) (source : Source σ) (begun : σ) (parsed : Parsed)

-- The machine stands where a call is made, and the names it has met so far have been asked for.
structure Abreast (p : Parsing) (r : Descent σ) : Prop where
  reads : p.readFrom r.cursor = parsed
  stop : p.stop = r.cursor.offset
  answered : ∃ numbers, answers source p.names.reverse begun = (.ok numbers,r.state)

inductive Foretold (s : σ) : Halt → Prop where
  | malformed {names : List String} {fault : Fault} {numbers : List Float} (stopped : parsed = ⟨names,.error fault⟩)
      (answered : answers source names begun = (.ok numbers,s)) : Foretold s (.failed (.malformed text fault))
  | lookup {error : LookupError} (failed : answers source parsed.names begun = (.error error,s)) :
      Foretold s (.failed (.lookup text error))
  | refused (call : Moment) : Foretold s (.refused call)

def Gained (frames : List Frame) (before : σ) (x : Float) (r : Descent σ) : Prop :=
  ∃ e p, p.operand = some (applyUnary e frames).1 ∧ p.frames = (applyUnary e frames).2 ∧
    Abreast source begun parsed p r ∧ e.eval source before = (.ok x,r.state)

def Follows {p : Descent σ} (r : Returned p) (gain : Float → Descent σ → Prop) : Prop :=
  match r.outcome with
  | .ok x => gain x r.after
  | .error halt => Foretold text source begun parsed r.after.state halt

end

section
variable {σ : Type} {text : String} {source : Source σ} {begun before : σ} {parsed : Parsed} {p q : Parsing}
  {r : Descent σ} {d : Cursor} {gain : Float → Descent σ → Prop}

namespace Follows

theorem andThen {other : Float → Descent σ → Prop} {first : Returned r}
    {next : Float → (q : Descent σ) → q.left ≤ r.left → Returned q} (follows : Follows text source begun parsed first gain)
    (later : ∀ x, gain x first.after → Follows text source begun parsed (next x first.after first.within) other) :
    Follows text source begun parsed (first.andThen next) other := by
  obtain ⟨outcome,after,within⟩ := first
  cases outcome with
  | error halt => exact follows
  | ok x => exact later x follows

theorem behind {next : Except TokenError (Option Token)} {taken : r.cursor.next = (next,d)} {own : Returned (r.goTo d)}
    (follows : Follows text source begun parsed own gain) : Follows text source begun parsed (.behind taken own) gain :=
  follows

theorem call {allowed : Moment → Bool} {opened : List Activation} {body : Unit → Returned (r.called opened)}
    (follows : Follows text source begun parsed (body ()) gain) :
    Follows text source begun parsed (r.call allowed opened body) gain := by
  unfold Descent.call
  split
  · exact follows
  · exact .refused _

theorem shallower {frames : List Frame} {own : Returned r.deeper}
    (follows : Follows text source begun parsed own (Gained source begun parsed frames before)) :
    Follows text source begun parsed own.shallower (Gained source begun parsed frames before) := by
  obtain ⟨outcome,after,within⟩ := own
  cases outcome with
  | error halt => exact follows
  | ok x =>
    obtain ⟨e,p,here,opened,abreast,evaluated⟩ := follows
    exact ⟨e,p,here,opened,⟨abreast.reads,abreast.stop,abreast.answered⟩,evaluated⟩

end Follows

namespace Abreast
variable (abreast : Abreast source begun parsed p r)
include abreast

theorem called (opened : List Activation) : Abreast source begun parsed p (r.called opened) :=
  ⟨abreast.reads,abreast.stop,abreast.answered⟩

theorem step {token : Token} (taken : r.cursor.next = (.ok (some token),d)) (stepped : p.step ⟨token,d.offset⟩ = .ok q)
    (unnamed : token.asked? = none) : Abreast source begun parsed q (r.goTo d) := by
  obtain ⟨names,stop⟩ := Parsing.step_ok stepped
  rw [unnamed] at names
  refine ⟨?_,stop,?_⟩
  · rw [← abreast.reads]
    exact (Parsing.readFrom_step taken stepped).symm
  · rw [names]
    exact abreast.answered

theorem fault {fault : Fault} (stopped : p.readFrom r.cursor = ⟨p.names.reverse,.error fault⟩) :
    Foretold text source begun parsed r.state (.failed (.malformed text fault)) := by
  obtain ⟨numbers,answered⟩ := abreast.answered
  exact .malformed (abreast.reads.symm.trans stopped) answered

theorem identifier {name : String} (empty : p.operand = none)
    (taken : r.cursor.next = (.ok (some (.identifier name)),d)) :
    Follows text source begun parsed (Descent.identifier text source name (r.goTo d))
      (Gained source begun parsed p.frames r.state) := by
  have stepped := Parsing.step_identifier empty d.offset name
  unfold Descent.identifier
  by_cases isTrue : name = "true"
  · subst isTrue
    exact ⟨_,_,rfl,rfl,abreast.step taken stepped rfl,rfl⟩
  · by_cases isFalse : name = "false"
    · subst isFalse
      exact ⟨_,_,rfl,rfl,abreast.step taken stepped rfl,rfl⟩
    · have tree : Expr.ofIdentifier name = .name name := by simp [Expr.ofIdentifier,isTrue,isFalse]
      have asked : (Token.identifier name).asked? = some name := by simp [Token.asked?,isTrue,isFalse]
      rw [asked,tree] at stepped
      have reads := (Parsing.readFrom_step taken stepped).symm.trans abreast.reads
      obtain ⟨numbers,answered⟩ := abreast.answered
      have next : answers source (p.names.reverse ++ [name]) begun = _ := answers_append answered
      rw [if_neg isTrue,if_neg isFalse]
      rcases asks : source name (r.goTo d).state with ⟨error | x,s⟩
      · have last : answers source [name] r.state = (.error error,s) := answers_cons_error.mpr (.inl asks)
        rw [last] at next
        refine .lookup ?_
        obtain ⟨more,names⟩ := Parsing.run_names _ d.lexed.ending d.lexed.lexemes
        rw [← reads]
        refine (congrArg (answers source · begun) names).trans ?_
        apply answers_append_error
        change answers source (name :: p.names).reverse begun = (.error error,s)
        rw [List.reverse_cons]
        exact next
      · have last : answers source [name] r.state = (.ok [x],s) := answers_cons_ok.mpr ⟨x,s,[],asks,rfl,rfl⟩
        rw [last] at next
        refine ⟨.name name,_,rfl,rfl,⟨reads,rfl,numbers ++ [x],?_⟩,asks⟩
        change answers source (name :: p.names).reverse begun = (.ok (numbers ++ [x]),s)
        rw [List.reverse_cons]
        exact next

theorem operator {op : BinaryOperator} {e : Expr} {frames : List Frame} (here : p.operand = some e)
    (waiting : p.frames = frames) (below : Below op.precedence frames)
    (taken : r.cursor.next = (.ok (some (.operator (.binary op))),d)) :
    ∃ q : Parsing, q.operand = none ∧ q.frames = .binary e op :: frames ∧ Abreast source begun parsed q (r.goTo d) := by
  have stepped : p.step ⟨.operator (.binary op),d.offset⟩ =
      .ok { p with frames := .binary e op :: frames, operand := none, stop := d.offset } := by
    simp only [Parsing.step,here,Parsing.operatorStep,waiting,applyBinary_below below e]
  exact ⟨_,rfl,rfl,abreast.step taken stepped rfl⟩

theorem nest {token : Token} {frame : Frame} {frames : List Frame} {body : Unit → Returned (r.goTo d).deeper}
    (taken : r.cursor.next = (.ok (some token),d)) (stepped : p.step ⟨token,d.offset⟩ = p.nest frame d.offset)
    (unnamed : token.asked? = none) (nests : frame.nests = true) (level : depth p.frames = r.depth)
    (inside : ∀ q : Parsing, q.operand = p.operand → q.frames = frame :: p.frames →
      depth (frame :: p.frames) = (r.goTo d).deeper.depth → Abreast source begun parsed q (r.goTo d).deeper →
        Follows text source begun parsed (body ()) (Gained source begun parsed frames before)) :
    Follows text source begun parsed ((r.goTo d).nest text body) (Gained source begun parsed frames before) := by
  unfold Descent.nest
  split
  · rename_i full
    rw [Parsing.nest_full (level ▸ full)] at stepped
    exact abreast.fault (Parsing.readFrom_fault taken stepped)
  · rename_i room
    rw [Parsing.nest_room (level ▸ Nat.not_le.mp room)] at stepped
    have next := abreast.step taken stepped unnamed
    have deeper : depth (frame :: p.frames) = r.depth + 1 := (depth_nested nests _).trans (congrArg (· + 1) level)
    exact (inside { p with frames := frame :: p.frames, stop := d.offset } rfl rfl deeper
      ⟨next.reads,next.stop,next.answered⟩).shallower

end Abreast

namespace Gained

theorem unary {op : PrefixOperator} {frames : List Frame} {x : Float}
    (operand : Gained source begun parsed (.unary op :: frames) before x r) :
    Gained source begun parsed frames before (op.apply x) r := by
  obtain ⟨e,q,here,opened,abreast,evaluated⟩ := operand
  refine ⟨.unary op e,q,here,opened,abreast,?_⟩
  rw [Expr.eval,evaluated]

theorem join {op : BinaryOperator} {e : Expr} {frames : List Frame} {middle : σ} {least : Nat} {x y : Float}
    (left : e.eval source before = (.ok x,middle)) (below : Below least frames)
    (right : Gained source begun parsed (.binary e op :: frames) middle y r) (ended : Ended (op.precedence + 1) r.cursor) :
    Gained source begun parsed frames before (op.apply x y) r := by
  obtain ⟨e',q,here,waiting,abreast,evaluated⟩ := right
  have reads := (Parsing.readFrom_joined here waiting ended).symm.trans abreast.reads
  refine ⟨.binary op e e',q.joined (.binary op e e') frames,?_,?_,⟨reads,abreast.stop,abreast.answered⟩,?_⟩
  · rw [applyUnary_below below]
    rfl
  · rw [applyUnary_below below]
    rfl
  · simp only [Expr.eval,left,evaluated]

end Gained

theorem closing_follows {x : Float} {frames : List Frame}
    (inside : Gained source begun parsed (.bracket :: frames) before x r) (ended : Ended 0 r.cursor) :
    Follows text source begun parsed (Descent.closing text x r) (Gained source begun parsed frames before) := by
  obtain ⟨e,p,here,opened,abreast,evaluated⟩ := inside
  have whole : applyBinary 0 e p.frames = (e,.bracket :: frames) := by
    rw [opened]
    rfl
  replace here : p.operand = some e := here
  unfold Ended at ended
  unfold Descent.closing
  split
  · rename_i taken
    rw [taken] at ended
    cases ended
  · rename_i d taken
    have stepped : p.step ⟨.closeBracket,d.offset⟩ = .ok (p.complete e frames d.offset) := by
      simp only [Parsing.step,here,Parsing.operatorStep,whole]
    exact ⟨e,_,rfl,rfl,abreast.step taken stepped rfl,evaluated⟩
  · rename_i next d other taken
    rw [taken] at ended
    cases next with
    | none =>
      refine abreast.fault ((Parsing.readFrom_end taken).trans ?_)
      simp only [Parsing.finish,here,whole]
    | some token =>
      cases token with
      | value | identifier | openBracket => cases ended
      | closeBracket => exact absurd rfl other
      | operator op =>
        cases op with
        | not => cases ended
        | binary op => cases ended

variable {allowed : Moment → Bool}

-- Calls follow the machine, by the recursion of the calls. A statement is called where an operand
-- is expected and no waiting operator binds as tight as the statement's own; the frames in front
-- of it stay what they are until it has returned.
mutual

theorem statement_follows (opened : List Activation) (least : Nat) (r : Descent σ) {p : Parsing}
    {frames : List Frame} (empty : p.operand = none) (waiting : p.frames = frames) (below : Below least frames)
    (level : depth frames = r.depth) (abreast : Abreast source begun parsed p r) :
    Follows text source begun parsed (Descent.statement text source allowed opened least r) fun x q =>
      Gained source begun parsed frames r.state x q ∧ Ended least q.cursor := by
  rw [Descent.statement]
  let first := Descent.operand text source allowed (.statement least :: opened) (r.called (.statement least :: opened))
  have within : first.after.left ≤ r.left := first.within
  have kept : first.after.depth = r.depth := Descent.operand_depth _ (r.called _)
  have operand : Follows text source begun parsed first (Gained source begun parsed frames r.state) :=
    operand_follows (.statement least :: opened) (r.called _) empty waiting level (abreast.called _)
  exact .call (.andThen operand fun lhs gained =>
    operators_follows (.statement least :: opened) least lhs first.after below (level.trans kept.symm) gained)
termination_by r.rank 2
decreasing_by
  · exact Descent.rank_within (Nat.le_refl _) (by decide)
  · exact Descent.rank_within (by assumption) (by decide)

theorem operators_follows (opened : List Activation) (least : Nat) (lhs : Float) (r : Descent σ) {before : σ}
    {frames : List Frame} (below : Below least frames) (level : depth frames = r.depth)
    (gained : Gained source begun parsed frames before lhs r) :
    Follows text source begun parsed (Descent.operators text source allowed opened least lhs r) fun x q =>
      Gained source begun parsed frames before x q ∧ Ended least q.cursor := by
  have done : Ended least r.cursor → Follows text source begun parsed (Returned.value lhs : Returned r) fun x q =>
      Gained source begun parsed frames before x q ∧ Ended least q.cursor := fun ended => ⟨gained,ended⟩
  obtain ⟨e,p,here,waiting,abreast,evaluated⟩ := gained
  rw [applyUnary_below below] at here waiting
  rw [Descent.operators]
  split <;> rename_i taken
  · exact abreast.fault (Parsing.readFrom_rejected taken)
  · exact done (by rw [Ended,taken]; trivial)
  · exact done (by rw [Ended,taken]; trivial)
  · rename_i op d
    split
    · rename_i less
      exact done (by rw [Ended,taken]; exact less)
    · rename_i tight
      obtain ⟨q,empty,pushed,next⟩ := abreast.operator here waiting (below.mono (Nat.not_lt.mp tight)) taken
      have deep : depth (.binary e op :: frames) = r.depth := (depth_binary e op frames).trans level
      let right := Descent.statement text source allowed opened (op.precedence + 1) (r.goTo d)
      have shorter : (r.goTo d).left < r.left := next_shorter taken
      have less : right.after.left < r.left := Nat.lt_of_le_of_lt right.within shorter
      have kept : right.after.depth = r.depth := Descent.statement_depth opened _ (r.goTo d)
      have statement := statement_follows opened (op.precedence + 1) (r.goTo d) empty pushed (Nat.lt_succ_self _) deep next
      exact .behind (.andThen statement fun rhs inside =>
        operators_follows opened least (op.apply lhs rhs) right.after below (level.trans kept.symm)
          (.join evaluated below inside.1 inside.2))
  · refine abreast.fault ((Parsing.readFrom_fault taken (Parsing.step_not here)).trans ?_)
    rw [abreast.stop]
  · rename_i closing binary not
    refine abreast.fault ((Parsing.readFrom_fault taken (Parsing.step_expected here closing binary not _)).trans ?_)
    rw [abreast.stop]
termination_by r.rank 0
decreasing_by
  all_goals exact Descent.rank_shorter (by assumption) (by decide)

theorem operand_follows (opened : List Activation) (r : Descent σ) {p : Parsing}
    {frames : List Frame} (empty : p.operand = none) (waiting : p.frames = frames) (level : depth frames = r.depth)
    (abreast : Abreast source begun parsed p r) :
    Follows text source begun parsed (Descent.operand text source allowed opened r)
      (Gained source begun parsed frames r.state) := by
  subst waiting
  rw [Descent.operand]
  refine .call ?_
  replace abreast := abreast.called (.operand :: opened)
  dsimp only
  split <;> rename_i taken
  · exact abreast.fault (Parsing.readFrom_rejected taken)
  · refine abreast.fault ((Parsing.readFrom_end taken).trans ?_)
    simp only [Parsing.finish,empty]
  · exact ⟨_,_,rfl,rfl,abreast.step taken (Parsing.step_value empty _ _) rfl,rfl⟩
  · exact abreast.identifier empty taken
  · refine .behind <| abreast.nest taken (Parsing.step_bracket empty _) rfl rfl level fun q same frames deeper reached => ?_
    exact .andThen (statement_follows _ 0 _ (same.trans empty) frames trivial deeper reached) fun x inside =>
      closing_follows inside.1 inside.2
  · refine .behind <| abreast.nest taken (Parsing.step_sign empty _ .negate) rfl rfl level fun q same frames deeper reached => ?_
    exact .andThen (operand_follows _ _ (same.trans empty) frames deeper reached) fun x inside => inside.unary
  · refine .behind <| abreast.nest taken (Parsing.step_sign empty _ .not) rfl rfl level fun q same frames deeper reached => ?_
    exact .andThen (operand_follows _ _ (same.trans empty) frames deeper reached) fun x inside => inside.unary
  · rename_i value identifier bracket subtract not
    exact abreast.fault
      (Parsing.readFrom_fault taken (Parsing.step_unexpected empty value identifier bracket subtract not _))
termination_by r.rank 1
decreasing_by
  all_goals exact Descent.rank_shorter (next_shorter (by assumption)) (by decide)

end

end
end DeferredAttributes.Expression
