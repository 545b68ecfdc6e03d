import DeferredAttributes.Proofs.Resolution.Run

-- How often resolvers are asked until nothing is parked any more. No promise is made here about
-- what they answer: they may be the host's, change their minds, and wait for any key.
namespace DeferredAttributes
open Resolution

-- The course of what is parked, with the attempts that it makes, one resolver asked in each.
-- An attempt that goes back to wait is made again in a later round.
inductive Rounds (environment : Environment) : Resolution → List Parked → Resolution → Prop where
  | idle {s : Resolution} (none : s.pending = []) : Rounds environment s [] s
  | stuck {s : Resolution} (some : s.pending ≠ []) (stuck : Parked.takeReady? (Parked.settled s.pending) = none) :
      Rounds environment s [] (s.abandon (Parked.settled s.pending))
  | round {s last : Resolution} {p : Parked} {others run : List Parked}
      (first : Parked.takeReady? (Parked.settled s.pending) = some (p,others))
      (next : Rounds environment (s.attempt environment p others) run last) : Rounds environment s (p :: run) last

-- Twice the number of attempts that can still be made: one for each attempt that is ready, and
-- for each attempt that ends, one for each of those that it makes ready again.
def Resolution.budget (s : Resolution) : Nat :=
  2 * Parked.readyCount s.pending + s.pending.length * (s.pending.length - 1)

section
variable {environment : Environment} {s last last' : Resolution} {run run' : List Parked}

theorem Parked.readyCount_le (pending : List Parked) : readyCount pending ≤ pending.length := by
  have bound : readyCount pending ≤ (settled pending).length := List.countP_le_length
  simpa [settled] using bound

theorem Parked.readyCount_taken {pending others : List Parked} {p : Parked}
    (first : takeReady? (settled pending) = some (p,others)) : 0 < readyCount pending := by
  obtain ⟨perm,ready⟩ := takeReady_perm first
  exact List.countP_pos_iff.mpr ⟨p,perm.mem_iff.mpr List.mem_cons_self,ready⟩

theorem Resolution.budget_le (s : Resolution) : s.budget ≤ s.pending.length * (s.pending.length + 1) := by
  have ready := Parked.readyCount_le s.pending
  unfold budget
  generalize s.pending.length = n at ready ⊢
  cases n with
  | zero => omega
  | succ n =>
    have split : (n + 1) * (n + 1 + 1) = (n + 1) * n + (n + 1) * 2 := Nat.mul_add (n + 1) n 2
    rw [Nat.add_sub_cancel,split]
    omega

-- A round uses up its attempt: either fewer are ready, or one has ended.
theorem Resolution.attempt_budget (environment : Environment) {p : Parked} {others : List Parked}
    (first : Parked.takeReady? (Parked.settled s.pending) = some (p,others)) :
    (s.attempt environment p others).budget + 2 ≤ s.budget := by
  have ready := Parked.readyCount_taken first
  rcases Prod.lex_def.mp (attempt_decreases environment s first) with fewer | ⟨same,less⟩
  · have paid := (s.attempt environment p others).budget_le
    dsimp only at fewer
    generalize (s.attempt environment p others).pending.length = n at paid fewer
    have bound : n * (n + 1) ≤ (s.pending.length - 1) * s.pending.length := Nat.mul_le_mul (by omega) fewer
    rw [Nat.mul_comm (s.pending.length - 1)] at bound
    have whole : s.budget = 2 * Parked.readyCount s.pending + s.pending.length * (s.pending.length - 1) := rfl
    omega
  · dsimp only at same less
    unfold budget
    rw [same]
    omega

theorem Rounds.bounded (rounds : Rounds environment s run last) : 2 * run.length ≤ s.budget := by
  induction rounds with
  | idle none => exact Nat.zero_le _
  | stuck some stuck => exact Nat.zero_le _
  | @round s last p others run first next ih =>
    have paid := attempt_budget environment first
    rw [List.length_cons]
    omega

theorem Rounds.ends (rounds : Rounds environment s run last) : last.pending = [] := by
  induction rounds with
  | idle none => exact none
  | stuck some stuck => rfl
  | round first next ih => exact ih

theorem Rounds.only (one : Rounds environment s run last) (two : Rounds environment s run' last') :
    run' = run ∧ last' = last := by
  induction one generalizing run' last' with
  | idle none =>
    cases two with
    | idle => exact ⟨rfl,rfl⟩
    | stuck some => exact absurd none some
    | round first => rw [none] at first; cases first
  | stuck some stuck =>
    cases two with
    | idle none => exact absurd none some
    | stuck => exact ⟨rfl,rfl⟩
    | round first => rw [stuck] at first; cases first
  | round first next ih =>
    cases two with
    | idle none => rw [none] at first; cases first
    | stuck some stuck => rw [stuck] at first; cases first
    | round second later =>
      cases first.symm.trans second
      obtain ⟨same,end'⟩ := ih later
      exact ⟨by rw [same],end'⟩

end

theorem drain_rounds (environment : Environment) (s : Resolution) :
    ∃ run, Rounds environment s run (s.drain environment) := by
  by_cases none : s.pending = []
  · rw [(drain_empty environment none).1]
    exact ⟨[],.idle none⟩
  · cases first : Parked.takeReady? (Parked.settled s.pending) with
    | none =>
      rw [(drain_stuck environment none first).1]
      exact ⟨[],.stuck none first⟩
    | some pair =>
      obtain ⟨p,others⟩ := pair
      rw [(drain_taken environment first).1]
      obtain ⟨run,next⟩ := drain_rounds environment (s.attempt environment p others)
      exact ⟨p :: run,.round first next⟩
termination_by (s.pending.length,Parked.readyCount s.pending)
decreasing_by exact attempt_decreases environment s ‹_›

-- With n attributes parked it makes at most n (n + 1) / 2 attempts, however often resolvers
-- change their minds.
theorem finish_rounds (environment : Environment) (s : Resolution) :
    ∃ run, (∀ other last, Rounds environment s other last ↔ other = run ∧ last = s.drain environment) ∧
      run.length ≤ s.pending.length * (s.pending.length + 1) / 2 ∧ (s.finish environment).2.pending = [] := by
  obtain ⟨run,rounds⟩ := drain_rounds environment s
  refine ⟨run,?_,?_,rounds.ends⟩
  · intro other last
    constructor
    · exact fun also => rounds.only also
    · rintro ⟨rfl,rfl⟩
      exact rounds
  · have paid := Nat.le_trans rounds.bounded s.budget_le
    omega

end DeferredAttributes
