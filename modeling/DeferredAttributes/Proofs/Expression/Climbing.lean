import DeferredAttributes.Proofs.Expression.Grammar

-- The machine follows the grammar: tokens that read as a tree bring it to a state in which that
-- tree stands behind its frames, and those that nest too deeply stop it.
namespace DeferredAttributes.Expression

namespace Parsing

def take : Parsing → List Lexeme → Except Fault Parsing
  | p, [] => .ok p
  | p, l :: rest =>
    match p.step l with
    | .ok q => q.take rest
    | .error fault => .error fault

section
variable {p q : Parsing} {one two : List Lexeme} {fault : Fault}

theorem take_cons {l : Lexeme} (stepped : p.step l = .ok q) : p.take (l :: two) = q.take two := by
  rw [take,stepped]

theorem take_cons_stopped {l : Lexeme} (stopped : p.step l = .error fault) :
    p.take (l :: two) = .error fault := by
  rw [take,stopped]

theorem take_append (taken : p.take one = .ok q) : p.take (one ++ two) = q.take two := by
  induction one generalizing p with
  | nil => cases taken; rfl
  | cons l rest ih =>
    cases stepped : p.step l with
    | error fault => rw [take_cons_stopped stepped] at taken; cases taken
    | ok next =>
      rw [take_cons stepped] at taken
      rw [List.cons_append,take_cons stepped]
      exact ih taken

theorem take_append_stopped (stopped : p.take one = .error fault) : p.take (one ++ two) = .error fault := by
  induction one generalizing p with
  | nil => cases stopped
  | cons l rest ih =>
    cases stepped : p.step l with
    | error other =>
      rw [take_cons_stopped stepped] at stopped
      rw [List.cons_append,take_cons_stopped stepped,stopped]
    | ok next =>
      rw [take_cons stepped] at stopped
      rw [List.cons_append,take_cons stepped]
      exact ih stopped

theorem run_taken (taken : p.take one = .ok q) (ending : Ending) :
    p.run ending one = ⟨q.names.reverse,q.finish ending⟩ := by
  induction one generalizing p with
  | nil => cases taken; rfl
  | cons l rest ih =>
    cases stepped : p.step l with
    | error fault => rw [take_cons_stopped stepped] at taken; cases taken
    | ok next =>
      rw [take_cons stepped] at taken
      rw [run,stepped]
      exact ih taken

theorem run_stopped (stopped : p.take one = .error fault) (ending : Ending) :
    (p.run ending one).outcome = .error fault := by
  induction one generalizing p with
  | nil => cases stopped
  | cons l rest ih =>
    cases stepped : p.step l with
    | error other =>
      rw [take_cons_stopped stepped] at stopped
      cases stopped
      rw [run,stepped]
    | ok next =>
      rw [take_cons stepped] at stopped
      rw [run,stepped]
      exact ih stopped

end

section
variable {p : Parsing} (empty : p.operand = none) (stop : Nat)
include empty

theorem step_value (x : Float) : p.step ⟨.value x,stop⟩ = .ok (p.complete (.number x) p.frames stop) := by
  simp only [step,empty,operandStep]

theorem step_identifier (name : String) :
    p.step ⟨.identifier name,stop⟩ =
      .ok ({ p with names := (Token.identifier name).asked?.toList ++ p.names }.complete
        (.ofIdentifier name) p.frames stop) := by
  by_cases isTrue : name = "true"
  · subst isTrue
    simp only [step,empty]
    rfl
  · by_cases isFalse : name = "false"
    · subst isFalse
      simp only [step,empty]
      rfl
    · simp [step,empty,operandStep,Expr.ofIdentifier,Token.asked?,isTrue,isFalse]

theorem step_bracket : p.step ⟨.openBracket,stop⟩ = p.nest .bracket stop := by
  simp only [step,empty,operandStep]

theorem step_sign (op : PrefixOperator) : p.step ⟨.operator op.sign,stop⟩ = p.nest (.unary op) stop := by
  cases op <;> simp only [step,empty,operandStep,PrefixOperator.sign]

end

theorem nest_room {p : Parsing} {frame : Frame} (room : depth p.frames < maxDepth) (stop : Nat) :
    p.nest frame stop = .ok { p with frames := frame :: p.frames, stop := stop } := by
  rw [nest,if_neg (Nat.not_le.mpr room)]

theorem nest_full {p : Parsing} {frame : Frame} (full : maxDepth ≤ depth p.frames) (stop : Nat) :
    p.nest frame stop = .error ⟨.tooDeep,stop⟩ := by
  rw [nest,if_pos full]

end Parsing

theorem depth_nested {frame : Frame} (nests : frame.nests = true) (frames : List Frame) :
    depth (frame :: frames) = depth frames + 1 := by
  unfold depth
  rw [List.countP_cons_of_pos nests]

theorem depth_binary (left : Expr) (op : BinaryOperator) (frames : List Frame) :
    depth (.binary left op :: frames) = depth frames := by
  unfold depth
  exact List.countP_cons_of_neg Bool.false_ne_true

-- On this level the innermost frame takes no part: it is an open bracket, or an operator that
-- binds less.
def Below (level : Nat) : List Frame → Prop
  | .unary _ :: _ => False
  | .binary _ op :: _ => op.precedence < level
  | _ => True

section
variable {level tightness : Nat} {frames : List Frame}

theorem Below.mono {higher : Nat} (below : Below level frames) (more : level ≤ higher) : Below higher frames := by
  cases frames with
  | nil => trivial
  | cons frame rest =>
    cases frame with
    | bracket => trivial
    | unary op => exact below
    | binary left op => exact Nat.lt_of_lt_of_le below more

theorem applyUnary_below (below : Below level frames) (e : Expr) : applyUnary e frames = (e,frames) := by
  cases frames with
  | nil => rfl
  | cons frame rest =>
    cases frame with
    | unary op => cases below
    | bracket | binary => rfl

theorem applyBinary_below (below : Below tightness frames) (e : Expr) :
    applyBinary tightness e frames = (e,frames) := by
  cases frames with
  | nil => rfl
  | cons frame rest =>
    cases frame with
    | bracket | unary => rfl
    | binary left op => rw [applyBinary,if_neg (Nat.not_le.mpr below)]

theorem applyBinary_joins {left e : Expr} {op : BinaryOperator} (tight : tightness ≤ op.precedence) :
    applyBinary tightness e (.binary left op :: frames) = applyBinary tightness (.binary op left e) frames := by
  rw [applyBinary,if_pos tight]

end

-- A tree has been read. What comes next finds it as the operand behind the frames that were
-- there before, unless it binds tighter than the tree's level.
structure Reached (p : Parsing) (level : Nat) (tokens : List Token) (e : Expr) (q : Parsing) : Prop where
  names : q.names = (asked tokens).reverse ++ p.names
  operand : ∃ x, q.operand = some x ∧ ∀ tightness ≤ level,
    applyBinary tightness x q.frames = applyBinary tightness (applyUnary e p.frames).1 (applyUnary e p.frames).2

namespace Reached
variable {p q : Parsing} {level : Nat} {tokens : List Token} {e : Expr}

theorem below (reached : Reached p level tokens e q) (below : Below level p.frames) :
    ∃ x, q.operand = some x ∧ ∀ tightness ≤ level,
      applyBinary tightness x q.frames = applyBinary tightness e p.frames := by
  obtain ⟨x,operand,joined⟩ := reached.operand
  rw [applyUnary_below below] at joined
  exact ⟨x,operand,joined⟩

theorem operator {op : BinaryOperator} (reached : Reached p op.precedence tokens e q)
    (below : Below op.precedence p.frames) (stop : Nat) :
    q.step ⟨.operator (.binary op),stop⟩ =
      .ok { q with frames := .binary e op :: p.frames, operand := none, stop := stop } := by
  obtain ⟨x,operand,joined⟩ := reached.below below
  have whole := (joined op.precedence (Nat.le_refl _)).trans (applyBinary_below below e)
  simp only [Parsing.step,operand,Parsing.operatorStep,whole]

theorem closing {frames : List Frame} (reached : Reached p level tokens e q) (opened : p.frames = .bracket :: frames)
    (stop : Nat) : q.step ⟨.closeBracket,stop⟩ = .ok (q.complete e frames stop) := by
  obtain ⟨x,operand,joined⟩ := reached.operand
  have whole := joined 0 (Nat.zero_le _)
  rw [opened] at whole
  simp only [Parsing.step,operand,Parsing.operatorStep,whole]
  rfl

theorem finish (reached : Reached p level tokens e q) (opened : p.frames = []) (length : Nat) :
    q.finish (.finished length) = .ok e := by
  obtain ⟨x,operand,joined⟩ := reached.operand
  have whole := joined 0 (Nat.zero_le _)
  rw [opened] at whole
  simp only [Parsing.finish,operand,whole]
  rfl

end Reached

theorem Derives.reached {nesting level : Nat} {tokens : List Token} {e : Expr}
    (derived : Derives nesting level tokens e) {p : Parsing} (empty : p.operand = none)
    (room : depth p.frames + nesting ≤ maxDepth) (below : level ≤ 5 → Below level p.frames)
    {lexemes : List Lexeme} (same : lexemes.map Lexeme.token = tokens) :
    ∃ q, p.take lexemes = .ok q ∧ Reached p level tokens e q := by
  induction derived generalizing p lexemes with
  | value x =>
    obtain ⟨⟨token,stop⟩,rfl,rfl⟩ := List.map_eq_singleton_iff.mp same
    exact ⟨_,Parsing.take_cons (Parsing.step_value empty stop x),rfl,_,rfl,fun _ _ => rfl⟩
  | identifier name =>
    obtain ⟨⟨token,stop⟩,rfl,rfl⟩ := List.map_eq_singleton_iff.mp same
    refine ⟨_,Parsing.take_cons (Parsing.step_identifier empty stop name),?_,_,rfl,fun _ _ => rfl⟩
    change (Token.identifier name).asked?.toList ++ p.names = _
    unfold asked
    cases found : (Token.identifier name).asked? <;> simp [found]
  | @bracketed nesting tokens e inside ih =>
    obtain ⟨⟨token,stop⟩,rest,rfl,rfl,later⟩ := List.map_eq_cons_iff.mp same
    obtain ⟨inner,last,rfl,read,closed⟩ := List.map_eq_append_iff.mp later
    obtain ⟨⟨token,stop'⟩,rfl,rfl⟩ := List.map_eq_singleton_iff.mp closed
    have deeper : depth (.bracket :: p.frames) = depth p.frames + 1 := depth_nested rfl _
    obtain ⟨q,taken,reached⟩ := ih (p := { p with frames := .bracket :: p.frames, stop := stop }) empty
      (by rw [deeper]; omega) (fun _ => trivial) read
    refine ⟨q.complete e p.frames stop',?_,?_,_,rfl,fun _ _ => rfl⟩
    · rw [Parsing.take_cons ((Parsing.step_bracket empty stop).trans (Parsing.nest_room (by omega) stop)),
        Parsing.take_append taken]
      exact Parsing.take_cons (reached.closing rfl stop')
    · change q.names = _
      rw [reached.names,asked_bracketed]
  | @signed nesting tokens e op operand ih =>
    obtain ⟨⟨token,stop⟩,rest,rfl,rfl,read⟩ := List.map_eq_cons_iff.mp same
    have deeper : depth (.unary op :: p.frames) = depth p.frames + 1 := depth_nested rfl _
    obtain ⟨q,taken,reached⟩ := ih (p := { p with frames := .unary op :: p.frames, stop := stop }) empty
      (by rw [deeper]; omega) (fun impossible => absurd impossible (by decide)) read
    refine ⟨q,?_,?_,reached.operand⟩
    · rw [Parsing.take_cons ((Parsing.step_sign empty stop op).trans (Parsing.nest_room (by omega) stop))]
      exact taken
    · exact reached.names
  | @single nesting level tokens e low high operand ih =>
    obtain ⟨q,taken,reached⟩ := ih empty room (fun _ => (below high).mono (Nat.le_succ _)) same
    refine ⟨q,taken,reached.names,?_⟩
    obtain ⟨x,here,joined⟩ := reached.operand
    exact ⟨x,here,fun tightness most => joined tightness (Nat.le_succ_of_le most)⟩
  | @joined one two left right l r op first second ihLeft ihRight =>
    have high : op.precedence ≤ 5 := (precedence_bounds op).2
    obtain ⟨front,later,rfl,readLeft,rest⟩ := List.map_eq_append_iff.mp same
    obtain ⟨⟨token,stop⟩,back,rfl,rfl,readRight⟩ := List.map_eq_cons_iff.mp rest
    obtain ⟨q,taken,reached⟩ := ihLeft empty (by omega) (fun _ => below high) readLeft
    have operator := reached.operator (below high) stop
    obtain ⟨q',taken',reached'⟩ :=
      ihRight (p := { q with frames := .binary l op :: p.frames, operand := none, stop := stop }) rfl
        (by rw [depth_binary]; omega) (fun _ => Nat.lt_succ_self _) readRight
    refine ⟨q',?_,?_,?_⟩
    · rw [Parsing.take_append taken,Parsing.take_cons operator,taken']
    · rw [reached'.names,reached.names,asked_joined,List.reverse_append,List.append_assoc]
    · obtain ⟨x,here,joined⟩ := reached'.below (Nat.lt_succ_self _)
      refine ⟨x,here,?_⟩
      intro tightness most
      rw [joined tightness (Nat.le_succ_of_le most),applyBinary_joins most,applyUnary_below (below high)]

theorem Derives.tooDeep {nesting level : Nat} {tokens : List Token} {e : Expr}
    (derived : Derives nesting level tokens e) {p : Parsing} (empty : p.operand = none)
    (known : depth p.frames ≤ maxDepth) (full : maxDepth < depth p.frames + nesting)
    (below : level ≤ 5 → Below level p.frames) {lexemes : List Lexeme}
    (same : lexemes.map Lexeme.token = tokens) : ∃ stop, p.take lexemes = .error ⟨.tooDeep,stop⟩ := by
  induction derived generalizing p lexemes with
  | value | identifier => omega
  | @bracketed nesting tokens e inside ih =>
    obtain ⟨⟨token,stop⟩,rest,rfl,rfl,later⟩ := List.map_eq_cons_iff.mp same
    obtain ⟨inner,last,rfl,read,closed⟩ := List.map_eq_append_iff.mp later
    by_cases room : depth p.frames < maxDepth
    · have deeper : depth (.bracket :: p.frames) = depth p.frames + 1 := depth_nested rfl _
      obtain ⟨stop',stopped⟩ := ih (p := { p with frames := .bracket :: p.frames, stop := stop }) empty
        (by rw [deeper]; omega) (by rw [deeper]; omega) (fun _ => trivial) read
      refine ⟨stop',?_⟩
      rw [Parsing.take_cons ((Parsing.step_bracket empty stop).trans (Parsing.nest_room room stop))]
      exact Parsing.take_append_stopped stopped
    · have stopped := (Parsing.step_bracket empty stop).trans (Parsing.nest_full (Nat.not_lt.mp room) stop)
      exact ⟨stop,Parsing.take_cons_stopped stopped⟩
  | @signed nesting tokens e op operand ih =>
    obtain ⟨⟨token,stop⟩,rest,rfl,rfl,read⟩ := List.map_eq_cons_iff.mp same
    by_cases room : depth p.frames < maxDepth
    · have deeper : depth (.unary op :: p.frames) = depth p.frames + 1 := depth_nested rfl _
      obtain ⟨stop',stopped⟩ := ih (p := { p with frames := .unary op :: p.frames, stop := stop }) empty
        (by rw [deeper]; omega) (by rw [deeper]; omega) (fun impossible => absurd impossible (by decide)) read
      refine ⟨stop',?_⟩
      rw [Parsing.take_cons ((Parsing.step_sign empty stop op).trans (Parsing.nest_room room stop))]
      exact stopped
    · have stopped := (Parsing.step_sign empty stop op).trans (Parsing.nest_full (Nat.not_lt.mp room) stop)
      exact ⟨stop,Parsing.take_cons_stopped stopped⟩
  | single low high operand ih =>
    exact ih empty known full (fun _ => (below high).mono (Nat.le_succ _)) same
  | @joined one two left right l r op first second ihLeft ihRight =>
    have high : op.precedence ≤ 5 := (precedence_bounds op).2
    obtain ⟨front,later,rfl,readLeft,rest⟩ := List.map_eq_append_iff.mp same
    by_cases room : depth p.frames + one ≤ maxDepth
    · -- the first operand fits, so it is the second that does not
      obtain ⟨⟨token,stop⟩,back,rfl,rfl,readRight⟩ := List.map_eq_cons_iff.mp rest
      obtain ⟨q,taken,reached⟩ := first.reached empty room (fun _ => below high) readLeft
      obtain ⟨stop',stopped⟩ :=
        ihRight (p := { q with frames := .binary l op :: p.frames, operand := none, stop := stop }) rfl
          (by rw [depth_binary]; exact known) (by rw [depth_binary]; omega) (fun _ => Nat.lt_succ_self _) readRight
      refine ⟨stop',?_⟩
      rw [Parsing.take_append taken,Parsing.take_cons (reached.operator (below high) stop),stopped]
    · obtain ⟨stop,stopped⟩ := ihLeft empty known (Nat.not_le.mp room) (fun _ => below high) readLeft
      exact ⟨stop,Parsing.take_append_stopped stopped⟩

end DeferredAttributes.Expression
