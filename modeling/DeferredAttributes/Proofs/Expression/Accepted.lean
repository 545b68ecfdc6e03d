import DeferredAttributes.Proofs.Expression.Climbing

-- What the machine accepts is what the grammar derives, up to the depth of nesting, and the
-- tree it builds is the only one.
namespace DeferredAttributes.Expression

-- Tokens that stand in frames, from the outermost frame on. Behind a binary operator only
-- what binds tighter can stand.
inductive Opened : List Frame → List Token → Prop where
  | nil : Opened [] []
  | bracket {frames : List Frame} {tokens : List Token} (opened : Opened frames tokens)
      (room : depth frames < maxDepth) : Opened (.bracket :: frames) (tokens ++ [.openBracket])
  | unary {frames : List Frame} {tokens : List Token} (op : PrefixOperator) (opened : Opened frames tokens)
      (room : depth frames < maxDepth) : Opened (.unary op :: frames) (tokens ++ [.operator op.sign])
  | binary {frames : List Frame} {tokens own : List Token} {nesting : Nat} {left : Expr} (op : BinaryOperator)
      (opened : Opened frames tokens) (below : Below op.precedence frames)
      (derived : Derives nesting op.precedence own left) (room : depth frames + nesting ≤ maxDepth) :
      Opened (.binary left op :: frames) (tokens ++ (own ++ [.operator (.binary op)]))

inductive Held (level : Nat) (e : Expr) (frames : List Frame) : List Token → Prop where
  | intro {before own : List Token} {nesting : Nat} (opened : Opened frames before)
      (derived : Derives nesting level own e) (room : depth frames + nesting ≤ maxDepth) :
      Held level e frames (before ++ own)

section
variable {frames : List Frame} {tokens : List Token} {e : Expr}

theorem Opened.bound (opened : Opened frames tokens) : depth frames ≤ maxDepth := by
  induction opened with
  | nil => exact Nat.zero_le _
  | bracket opened room ih | unary op opened room ih =>
    rw [depth_nested rfl]
    exact room
  | binary op opened below derived room ih =>
    rw [depth_binary]
    exact ih

theorem Held.lower {level lower : Nat} (held : Held level e frames tokens) (low : 1 ≤ lower)
    (below : lower ≤ level) (high : level ≤ 6) : Held lower e frames tokens := by
  obtain ⟨opened,derived,room⟩ := held
  exact .intro opened (derived.lower low below high) room

theorem Held.applyUnary (held : Held 6 e frames tokens) :
    Held 6 (applyUnary e frames).1 (applyUnary e frames).2 tokens ∧ Below 6 (applyUnary e frames).2 := by
  induction frames generalizing e with
  | nil => exact ⟨held,trivial⟩
  | cons frame rest ih =>
    cases frame with
    | bracket => exact ⟨held,trivial⟩
    | binary left op => exact ⟨held,Nat.lt_succ_of_le (precedence_bounds op).2⟩
    | unary op =>
      obtain ⟨opened,derived,room⟩ := held
      cases opened with
      | unary op opened deeper =>
        rw [depth_nested rfl] at room
        apply ih
        rw [List.append_assoc]
        exact .intro opened (.signed op derived) (by omega)

theorem Held.applyBinary {level tightness : Nat} (held : Held level e frames tokens) (below : Below level frames)
    (low : 1 ≤ level) (high : level ≤ 6) (least : tightness ≤ level) :
    Held (max 1 tightness) (applyBinary tightness e frames).1 (applyBinary tightness e frames).2 tokens ∧
      Below tightness (applyBinary tightness e frames).2 := by
  induction frames generalizing e level with
  | nil => exact ⟨held.lower (by omega) (by omega) high,trivial⟩
  | cons frame rest ih =>
    cases frame with
    | bracket => exact ⟨held.lower (by omega) (by omega) high,trivial⟩
    | unary op => cases below
    | binary left op =>
      by_cases tight : tightness ≤ op.precedence
      · rw [applyBinary_joins tight]
        obtain ⟨opened,derived,room⟩ := held
        cases opened with
        | binary op opened outer first known =>
          obtain ⟨positive,bounded⟩ := precedence_bounds op
          have second := derived.lower (Nat.le_add_left 1 op.precedence) below high
          rw [depth_binary] at room
          apply ih _ outer positive (by omega) tight
          rw [List.append_assoc,List.append_assoc]
          exact .intro opened (.joined op first second) (by omega)
      · rw [Expression.applyBinary,if_neg tight]
        exact ⟨held.lower (by omega) (by omega) high,Nat.not_le.mp tight⟩

end

-- What has been read so far: frames alone where an operand is expected, else frames and an
-- operand that no further token belongs to.
inductive Standing (p : Parsing) (tokens : List Token) : Prop where
  | waiting (empty : p.operand = none) (opened : Opened p.frames tokens)
  | holding {e : Expr} (here : p.operand = some e) (held : Held 6 e p.frames tokens) (below : Below 6 p.frames)

namespace Standing
variable {p q : Parsing} {tokens : List Token}

theorem start : Standing .start [] := .waiting rfl .nil

theorem complete {e : Expr} {frames : List Frame} (held : Held 6 e frames tokens) (stop : Nat) :
    Standing (p.complete e frames stop) tokens :=
  .holding rfl held.applyUnary.1 held.applyUnary.2

theorem operand {token : Token} {e : Expr} (opened : Opened p.frames tokens) (derived : Derives 0 6 [token] e)
    (stop : Nat) : Standing (q.complete e p.frames stop) (tokens ++ [token]) :=
  complete (.intro opened derived opened.bound) stop

theorem nest {frame : Frame} {token : Token} {stop : Nat} (empty : p.operand = none)
    (opened : depth p.frames < maxDepth → Opened (frame :: p.frames) (tokens ++ [token]))
    (stepped : p.nest frame stop = .ok q) : Standing q (tokens ++ [token]) := by
  by_cases room : depth p.frames < maxDepth
  · rw [Parsing.nest_room room] at stepped
    cases stepped
    exact .waiting empty (opened room)
  · rw [Parsing.nest_full (Nat.not_lt.mp room)] at stepped
    cases stepped

theorem operandStep {token : Token} {stop : Nat} (empty : p.operand = none) (opened : Opened p.frames tokens)
    (stepped : p.step ⟨token,stop⟩ = .ok q) : Standing q (tokens ++ [token]) := by
  have signed : ∀ op : PrefixOperator, p.step ⟨.operator op.sign,stop⟩ = .ok q →
      Standing q (tokens ++ [.operator op.sign]) := by
    intro op stepped
    rw [Parsing.step_sign empty] at stepped
    exact nest empty (.unary op opened) stepped
  cases token with
  | value x =>
    rw [Parsing.step_value empty] at stepped
    cases stepped
    exact operand opened (.value x) stop
  | identifier name =>
    rw [Parsing.step_identifier empty] at stepped
    cases stepped
    exact operand opened (.identifier name) stop
  | openBracket =>
    rw [Parsing.step_bracket empty] at stepped
    exact nest empty (.bracket opened) stepped
  | closeBracket =>
    rw [Parsing.step,empty] at stepped
    cases stepped
  | operator op =>
    cases op with
    | not => exact signed .not stepped
    | binary op =>
      cases op with
      | subtract => exact signed .negate stepped
      | _ =>
        rw [Parsing.step,empty] at stepped
        cases stepped

theorem operatorStep {token : Token} {stop : Nat} {e : Expr} (here : p.operand = some e)
    (held : Held 6 e p.frames tokens) (below : Below 6 p.frames) (stepped : p.step ⟨token,stop⟩ = .ok q) :
    Standing q (tokens ++ [token]) := by
  rw [Parsing.step,here] at stepped
  unfold Parsing.operatorStep at stepped
  cases token with
  | value | identifier | openBracket => cases stepped
  | closeBracket =>
    obtain ⟨whole,outer⟩ := held.applyBinary below (by decide) (by decide) (Nat.zero_le 6)
    dsimp only at stepped
    split at stepped
    · rename_i inner frames opened
      cases stepped
      rw [opened] at whole
      obtain ⟨before,derived,room⟩ := whole
      cases before with
      | bracket before deeper =>
        rw [depth_nested rfl] at room
        refine complete ?_ stop
        rw [List.append_assoc,List.append_assoc]
        exact .intro before (.bracketed derived) (by omega)
    · cases stepped
  | operator op =>
    cases op with
    | not => cases stepped
    | binary op =>
      obtain ⟨positive,bounded⟩ := precedence_bounds op
      obtain ⟨whole,outer⟩ := held.applyBinary below (by decide) (by decide) (show op.precedence ≤ 6 by omega)
      rw [Nat.max_eq_right positive] at whole
      cases stepped
      obtain ⟨opened,derived,room⟩ := whole
      refine .waiting rfl ?_
      rw [List.append_assoc]
      exact .binary op opened outer derived room

theorem take (standing : Standing p tokens) {lexemes : List Lexeme} (taken : p.take lexemes = .ok q) :
    Standing q (tokens ++ lexemes.map Lexeme.token) := by
  induction lexemes generalizing p tokens with
  | nil =>
    cases taken
    rw [List.map_nil,List.append_nil]
    exact standing
  | cons l rest ih =>
    cases stepped : p.step l with
    | error fault => rw [Parsing.take_cons_stopped stepped] at taken; cases taken
    | ok next =>
      rw [Parsing.take_cons stepped] at taken
      have after : Standing next (tokens ++ [l.token]) := by
        cases standing with
        | waiting empty opened => exact operandStep empty opened stepped
        | holding here held below => exact operatorStep here held below stepped
      have standing := ih after taken
      rwa [List.append_assoc] at standing

theorem finish (standing : Standing p tokens) {length : Nat} {e : Expr}
    (finished : p.finish (.finished length) = .ok e) : ∃ nesting ≤ maxDepth, Derives nesting 1 tokens e := by
  unfold Parsing.finish at finished
  cases standing with
  | waiting empty opened =>
    rw [empty] at finished
    cases finished
  | holding here held below =>
    obtain ⟨whole,outer⟩ := held.applyBinary below (by decide) (by decide) (Nat.zero_le 6)
    rw [here] at finished
    dsimp only at finished
    split at finished
    · rename_i inner closed
      cases finished
      rw [closed] at whole
      obtain ⟨opened,derived,room⟩ := whole
      cases opened
      exact ⟨_,by simpa [depth] using room,derived⟩
    · cases finished

end Standing

-- The tokens of a text, up to the first one that is rejected.
def tokens (text : String) : List Token := (Cursor.start text.toList).lexed.lexemes.map Lexeme.token

def Tokenizes (text : String) : Prop := ∃ length, (Cursor.start text.toList).lexed.ending = .finished length

section
variable {text : String} {e : Expr}

theorem parse_taken (parsed : (parse text).outcome = .ok e) :
    ∃ q length, Parsing.start.take (Cursor.start text.toList).lexed.lexemes = .ok q ∧
      (Cursor.start text.toList).lexed.ending = .finished length ∧ q.finish (.finished length) = .ok e := by
  unfold parse at parsed
  dsimp only at parsed
  cases taken : Parsing.start.take (Cursor.start text.toList).lexed.lexemes with
  | error fault =>
    rw [Parsing.run_stopped taken] at parsed
    cases parsed
  | ok q =>
    rw [Parsing.run_taken taken] at parsed
    cases ending : (Cursor.start text.toList).lexed.ending with
    | rejected error =>
      rw [ending] at parsed
      cases parsed
    | finished length =>
      rw [ending] at parsed
      exact ⟨q,length,rfl,rfl,parsed⟩

theorem parse_derives (parsed : (parse text).outcome = .ok e) :
    Tokenizes text ∧ ∃ nesting ≤ maxDepth, Derives nesting 1 (tokens text) e := by
  obtain ⟨q,length,taken,ending,finished⟩ := parse_taken parsed
  exact ⟨⟨length,ending⟩,(Standing.start.take taken).finish finished⟩

theorem Derives.parse {nesting : Nat} (derived : Derives nesting 1 (tokens text) e) (room : nesting ≤ maxDepth)
    (whole : Tokenizes text) : Expression.parse text = ⟨asked (tokens text),.ok e⟩ := by
  obtain ⟨length,ending⟩ := whole
  obtain ⟨q,taken,reached⟩ := derived.reached (p := .start) rfl (by simpa [depth,Parsing.start] using room) (fun _ => trivial) rfl
  unfold Expression.parse
  dsimp only
  rw [Parsing.run_taken taken,ending,reached.finish rfl,reached.names]
  simp [Parsing.start]

theorem Derives.only {nesting : Nat} {other : Expr} (derived : Derives nesting 1 (tokens text) other)
    (parsed : (Expression.parse text).outcome = .ok e) : other = e := by
  obtain ⟨q,length,taken,ending,finished⟩ := parse_taken parsed
  by_cases room : nesting ≤ maxDepth
  · rw [derived.parse room ⟨length,ending⟩] at parsed
    cases parsed
    rfl
  · obtain ⟨stop,stopped⟩ := derived.tooDeep (p := .start) rfl (by simp [depth,Parsing.start])
      (by simpa [depth,Parsing.start] using room) (fun _ => trivial) rfl
    rw [taken] at stopped
    cases stopped

theorem check_parse : check text = .ok () ↔ ∃ e, (Expression.parse text).outcome = .ok e := by
  unfold check
  cases (Expression.parse text).outcome with
  | error fault => exact ⟨fun impossible => (by cases impossible),fun ⟨_,impossible⟩ => (by cases impossible)⟩
  | ok e => exact ⟨fun _ => ⟨e,rfl⟩,fun _ => rfl⟩

end

def Token.endsOperand : Token → Bool
  | .value _ | .identifier _ | .closeBracket => true
  | .operator _ | .openBracket => false

namespace Parsing
variable {p q : Parsing} {stop : Nat}

theorem step_endsOperand {token : Token} (ends : token.endsOperand = true) (stepped : p.step ⟨token,stop⟩ = .ok q) :
    ∃ e, q.operand = some e := by
  cases here : p.operand with
  | none =>
    cases token with
    | value x =>
      rw [step_value here] at stepped
      cases stepped
      exact ⟨_,rfl⟩
    | identifier name =>
      rw [step_identifier here] at stepped
      cases stepped
      exact ⟨_,rfl⟩
    | closeBracket =>
      rw [step,here] at stepped
      cases stepped
    | operator | openBracket => cases ends
  | some e =>
    rw [step,here] at stepped
    cases token with
    | value | identifier => cases stepped
    | closeBracket =>
      dsimp only [operatorStep] at stepped
      split at stepped
      · cases stepped
        exact ⟨_,rfl⟩
      · cases stepped
    | operator | openBracket => cases ends

theorem step_not {e : Expr} (here : p.operand = some e) :
    p.step ⟨.operator .not,stop⟩ = .error ⟨.notBinary,p.stop⟩ := by
  rw [step,here]
  rfl

theorem take_not {before after : List Lexeme} {l next : Lexeme} (ends : l.token.endsOperand = true)
    (negates : next.token = .operator .not) : p.take (before ++ l :: next :: after) ≠ .ok q := by
  intro taken
  obtain ⟨token,stop⟩ := next
  cases negates
  cases first : p.take before with
  | error fault =>
    rw [take_append_stopped first] at taken
    cases taken
  | ok one =>
    rw [take_append first] at taken
    cases second : one.step l with
    | error fault =>
      rw [take_cons_stopped second] at taken
      cases taken
    | ok two =>
      obtain ⟨e,here⟩ := step_endsOperand ends second
      rw [take_cons second,take_cons_stopped (step_not here)] at taken
      cases taken

end Parsing

-- A text is accepted when none of its tokens is rejected and they derive a tree in which brackets
-- and prefix operators are at most 64 deep.
theorem check_accepts (text : String) :
    (check text = .ok () ↔ Tokenizes text ∧ ∃ nesting ≤ 64, ∃ e, Derives nesting 1 (tokens text) e) ∧
    (∀ (op : BinaryOperator) (one two : Nat) (left right : List Token) (l r : Expr),
      Derives one op.precedence left l → Derives two (op.precedence + 1) right r → one ≤ 64 → two ≤ 64 →
      Tokenizes text → tokens text = left ++ .operator (.binary op) :: right → check text = .ok ()) ∧
    (check text = .ok () → ∀ before token after, tokens text = before ++ token :: .operator .not :: after →
      token.endsOperand = false) := by
  have accepts : check text = .ok () ↔ Tokenizes text ∧ ∃ nesting ≤ 64, ∃ e, Derives nesting 1 (tokens text) e := by
    rw [check_parse]
    constructor
    · rintro ⟨e,parsed⟩
      obtain ⟨whole,nesting,room,derived⟩ := parse_derives parsed
      exact ⟨whole,nesting,room,e,derived⟩
    · rintro ⟨whole,nesting,room,e,derived⟩
      exact ⟨e,by rw [derived.parse room whole]⟩
  refine ⟨accepts,?_,?_⟩
  · intro op one two left right l r first second roomLeft roomRight whole split
    obtain ⟨positive,bounded⟩ := precedence_bounds op
    have joined := (Derives.joined op first second).lower (Nat.le_refl 1) positive (by omega)
    exact accepts.mpr ⟨whole,max one two,by omega,_,split ▸ joined⟩
  · intro accepted before token after split
    obtain ⟨e,parsed⟩ := check_parse.mp accepted
    obtain ⟨q,length,taken,_⟩ := parse_taken parsed
    obtain ⟨front,rest,lexemes,_,later⟩ := List.map_eq_append_iff.mp split
    obtain ⟨l,others,rfl,own,later⟩ := List.map_eq_cons_iff.mp later
    obtain ⟨next,back,rfl,negates,_⟩ := List.map_eq_cons_iff.mp later
    cases ends : token.endsOperand with
    | false => rfl
    | true =>
      rw [lexemes] at taken
      exact absurd taken (Parsing.take_not (own ▸ ends) negates)

example : (check "-(1 + 2) * !ready").isOk = true ∧ (check "ready !x").isOk = false := by decide +kernel

end DeferredAttributes.Expression
