import DeferredAttributes.Expression.Evaluate

-- Reading an expression by functions that call each other, its value computed on the way. Every
-- call notes which calls are open when it is made, and one that is not allowed ends everything.
namespace DeferredAttributes.Expression

-- A call that has not returned, and within an operand the bracket or the prefix operator that
-- waits for what it stands in front of.
inductive Activation where
  | statement (least : Nat)
  | operand
  | bracket
  | sign (op : PrefixOperator)

def Activation.isStatement : Activation → Bool
  | .statement _ => true
  | _ => false

def Activation.isOperand : Activation → Bool
  | .operand => true
  | _ => false

def Activation.nests : Activation → Bool
  | .bracket | .sign _ => true
  | _ => false

-- A statement or an operand is called: what is open by then, innermost first and the call itself
-- included, and what the counter says.
structure Moment where
  opened : List Activation
  depth : Nat

namespace Moment

def statements (m : Moment) : Nat := m.opened.countP Activation.isStatement

def operands (m : Moment) : Nat := m.opened.countP Activation.isOperand

def nested (m : Moment) : Nat := m.opened.countP Activation.nests

end Moment

inductive Halt where
  | failed (error : ExpressionError)
  | refused (call : Moment)

-- What the calls share: the place in the text, the counter, what the identifiers come from, and
-- all calls so far, last first.
structure Descent (σ : Type) where
  cursor : Cursor
  depth : Nat
  state : σ
  calls : List Moment

namespace Descent

def left {σ : Type} (p : Descent σ) : Nat := p.cursor.rest.length

-- A call is made with less of the text left, or with as much of it by a function of a higher place.
def rank {σ : Type} (p : Descent σ) (place : Nat) : Nat := 3 * p.left + place

theorem rank_shorter {σ : Type} {p q : Descent σ} {place own : Nat} (shorter : q.left < p.left) (few : place ≤ 2) :
    q.rank place < p.rank own := by
  unfold rank
  omega

theorem rank_within {σ : Type} {p q : Descent σ} {place own : Nat} (within : q.left ≤ p.left) (lower : place < own) :
    q.rank place < p.rank own := by
  unfold rank
  omega

def goTo {σ : Type} (p : Descent σ) (c : Cursor) : Descent σ := { p with cursor := c }

def deeper {σ : Type} (p : Descent σ) : Descent σ := { p with depth := p.depth + 1 }

def called {σ : Type} (p : Descent σ) (opened : List Activation) : Descent σ :=
  { p with calls := ⟨opened,p.depth⟩ :: p.calls }

end Descent

-- How a call ends that is made at `p`. It never goes back in the text.
structure Returned {σ : Type} (p : Descent σ) where
  outcome : Except Halt Float
  after : Descent σ
  within : after.left ≤ p.left

theorem taken_within {c d : Cursor} {outcome : Except TokenError (Option Token)} (taken : c.next = (outcome,d)) :
    d.rest.length ≤ c.rest.length := by
  have skipped : c.skipBlanks.rest.length ≤ c.rest.length := by simp [Cursor.skipBlanks,Cursor.advance]
  unfold Cursor.next at taken
  dsimp only at taken
  split at taken
  · cases taken
    exact skipped
  · split at taken
    · cases taken
      exact Nat.le_trans (by simp [Cursor.advance]) skipped
    · cases taken
      exact skipped

section
variable {σ : Type} {p : Descent σ} {d : Cursor}

namespace Returned

def value (x : Float) : Returned p := ⟨.ok x,p,Nat.le_refl _⟩

def fail (error : ExpressionError) : Returned p := ⟨.error (.failed error),p,Nat.le_refl _⟩

def behind {next : Except TokenError (Option Token)} (taken : p.cursor.next = (next,d)) (r : Returned (p.goTo d)) :
    Returned p :=
  ⟨r.outcome,r.after,Nat.le_trans r.within (taken_within taken)⟩

def andThen (r : Returned p) (next : Float → (q : Descent σ) → q.left ≤ p.left → Returned q) : Returned p :=
  match r with
  | ⟨.error halt,q,within⟩ => ⟨.error halt,q,within⟩
  | ⟨.ok x,q,within⟩ =>
    let r := next x q within
    ⟨r.outcome,r.after,Nat.le_trans r.within within⟩

def noted {opened : List Activation} (r : Returned (p.called opened)) : Returned p := ⟨r.outcome,r.after,r.within⟩

def shallower (r : Returned p.deeper) : Returned p :=
  ⟨r.outcome,{ r.after with depth := r.after.depth - 1 },r.within⟩

end Returned

namespace Descent

def call (p : Descent σ) (allowed : Moment → Bool) (opened : List Activation)
    (body : Unit → Returned (p.called opened)) : Returned p :=
  if allowed ⟨opened,p.depth⟩ then (body ()).noted
  else ⟨.error (.refused ⟨opened,p.depth⟩),p,Nat.le_refl _⟩

-- The counter goes back whether the body succeeds or not.
def nest (p : Descent σ) (text : String) (body : Unit → Returned p.deeper) : Returned p :=
  if maxDepth ≤ p.depth then .fail (.malformed text ⟨.tooDeep,p.cursor.offset⟩) else (body ()).shallower

end Descent
end

namespace Descent

section
variable {σ : Type} (text : String) (source : Source σ) (allowed : Moment → Bool)

def closing (x : Float) (p : Descent σ) : Returned p :=
  match taken : p.cursor.next with
  | (.error error,_) => .behind taken (.fail (.malformed text ⟨.token error,error.offset⟩))
  | (.ok (some .closeBracket),_) => .behind taken (.value x)
  | (.ok _,d) => .behind taken (.fail (.malformed text ⟨.unclosed,d.offset⟩))

def identifier (name : String) (p : Descent σ) : Returned p :=
  if name = "true" then .value 1
  else if name = "false" then .value 0
  else
    match source name p.state with
    | (.ok x,s) => ⟨.ok x,{ p with state := s },Nat.le_refl _⟩
    | (.error error,s) => ⟨.error (.failed (.lookup text error)),{ p with state := s },Nat.le_refl _⟩

mutual

def statement (opened : List Activation) (least : Nat) (p : Descent σ) : Returned p :=
  let here := .statement least :: opened
  p.call allowed here fun _ =>
    (operand here (p.called here)).andThen fun lhs q _ => operators here least lhs q
termination_by p.rank 2
decreasing_by
  · exact rank_within (Nat.le_refl _) (by decide)
  · exact rank_within (by assumption) (by decide)

-- The rest of a statement. A token that cannot belong to it is left to the caller.
def operators (opened : List Activation) (least : Nat) (lhs : Float) (p : Descent σ) : Returned p :=
  match taken : p.cursor.next with
  | (.error error,_) => .fail (.malformed text ⟨.token error,error.offset⟩)
  | (.ok none,_) => .value lhs
  | (.ok (some .closeBracket),_) => .value lhs
  | (.ok (some (.operator (.binary op))),d) =>
    if op.precedence < least then .value lhs
    else
      .behind taken ((statement opened (op.precedence + 1) (p.goTo d)).andThen fun rhs q _ =>
        operators opened least (op.apply lhs rhs) q)
  | (.ok (some (.operator .not)),_) => .fail (.malformed text ⟨.notBinary,p.cursor.offset⟩)
  | (.ok (some found),_) => .fail (.malformed text ⟨.expectedOperator found,p.cursor.offset⟩)
termination_by p.rank 0
decreasing_by
  · exact rank_shorter (next_shorter taken) (by decide)
  · exact rank_shorter (Nat.lt_of_le_of_lt (by assumption) (next_shorter taken)) (by decide)

def operand (opened : List Activation) (p : Descent σ) : Returned p :=
  let here := .operand :: opened
  p.call allowed here fun _ =>
    let p := p.called here
    match taken : p.cursor.next with
    | (.error error,_) => .behind taken (.fail (.malformed text ⟨.token error,error.offset⟩))
    | (.ok none,d) => .behind taken (.fail (.malformed text ⟨.unexpectedEnd,d.offset⟩))
    | (.ok (some (.value x)),_) => .behind taken (.value x)
    | (.ok (some (.identifier name)),d) => .behind taken (identifier text source name (p.goTo d))
    | (.ok (some .openBracket),d) =>
      .behind taken <| (p.goTo d).nest text fun _ =>
        (statement (.bracket :: here) 0 (p.goTo d).deeper).andThen fun x q _ => closing text x q
    | (.ok (some (.operator (.binary .subtract))),d) =>
      .behind taken <| (p.goTo d).nest text fun _ =>
        (operand (.sign .negate :: here) (p.goTo d).deeper).andThen fun x _ _ => .value (-x)
    | (.ok (some (.operator .not)),d) =>
      .behind taken <| (p.goTo d).nest text fun _ =>
        (operand (.sign .not :: here) (p.goTo d).deeper).andThen fun x _ _ => .value (truth (x == 0))
    | (.ok (some found),d) => .behind taken (.fail (.malformed text ⟨.unexpected found,d.offset⟩))
termination_by p.rank 1
decreasing_by
  all_goals exact rank_shorter (next_shorter taken) (by decide)

end

def ending (x : Float) (p : Descent σ) : Returned p :=
  match taken : p.cursor.next with
  | (.error error,_) => .behind taken (.fail (.malformed text ⟨.token error,error.offset⟩))
  | (.ok none,_) => .behind taken (.value x)
  | (.ok (some found),d) => .behind taken (.fail (.malformed text ⟨.unexpected found,d.offset⟩))

def start (s : σ) : Descent σ := ⟨.start text.toList,0,s,[]⟩

def whole (s : σ) : Returned (start text s) :=
  (statement text source allowed [] 0 (start text s)).andThen fun x q _ => ending text x q

end

end Descent
end DeferredAttributes.Expression
