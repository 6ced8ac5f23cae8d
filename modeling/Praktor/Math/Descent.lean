/-
# Loops that consume input

A reader of left-associative chains repeats a step: it stops, fails or goes on with less
input.  `iterate` is that loop on a list of symbols; a step that does not consume input ends
it.  `repeatStep` is the loop of a program with a state of its own and a bound on its rounds.
Where one round of the program follows one step, the whole loop follows `iterate`, and a
bound of the length of the input is never reached.
-/

import Mathlib.Data.List.Basic

namespace Praktor.Math

universe u v w x

/-- A reader of symbols: a value and the input after it, or nothing. -/
abbrev Reader (τ : Type u) (α : Type v) := List τ → Option (α × List τ)

section Iterate

variable {τ : Type u} {α : Type v} (step : α → List τ → Option (Option (α × List τ)))

/-- Repeat a step until it stops. -/
def iterate (value : α) (input : List τ) : Option (α × List τ) :=
  match step value input with
  | none => none
  | some none => some (value, input)
  | some (some next) =>
      if next.2.length < input.length then iterate next.1 next.2 else none
termination_by input.length

variable {step} {value : α} {input : List τ}

theorem iterate_fail (hstep : step value input = none) : iterate step value input = none := by
  rw [iterate, hstep]

theorem iterate_stop (hstep : step value input = some none) :
    iterate step value input = some (value, input) := by
  rw [iterate, hstep]

theorem iterate_next {next : α} {rest : List τ} (hstep : step value input = some (some (next, rest)))
    (hshorter : rest.length < input.length) :
    iterate step value input = iterate step next rest := by
  rw [iterate, hstep]
  simp only
  rw [if_pos hshorter]

/-- What each step keeps holds at the end of the loop. -/
theorem iterate_induct {kept : α → List τ → Prop}
    (hstep : ∀ value input next rest, kept value input →
      step value input = some (some (next, rest)) → kept next rest)
    {last : α} {rest : List τ} (hkept : kept value input)
    (hiterate : iterate step value input = some (last, rest)) : kept last rest := by
  induction hlength : input.length using Nat.strongRecOn generalizing value input with
  | ind length ih =>
      rw [iterate] at hiterate
      cases hone : step value input with
      | none => simp [hone] at hiterate
      | some outcome =>
          rw [hone] at hiterate
          cases outcome with
          | none =>
              obtain ⟨rfl, rfl⟩ : value = last ∧ input = rest := by simpa using hiterate
              exact hkept
          | some next =>
              obtain ⟨next, later⟩ := next
              simp only at hiterate
              split_ifs at hiterate with hshorter
              exact ih _ (hlength ▸ hshorter) (hstep _ _ _ _ hkept hone) hiterate rfl

end Iterate

/-! ## Loops of a program -/

section Repeat

variable {σ : Type w} {β : Type x}

/-- Repeat a round until it ends the loop, at most a number of times. -/
def repeatStep (round : β → σ → Option (β × σ)) : Nat → β → σ → β × σ
  | 0, value, state => (value, state)
  | bound + 1, value, state =>
      match round value state with
      | none => (value, state)
      | some next => repeatStep round bound next.1 next.2

variable {round : β → σ → Option (β × σ)}

theorem repeatStep_stop {value : β} {state : σ} (hround : round value state = none) (bound : Nat) :
    repeatStep round bound value state = (value, state) := by
  cases bound with
  | zero => rfl
  | succ bound => rw [repeatStep, hround]

/-- What each round keeps holds at the end of the loop. -/
theorem repeatStep_induct {kept : β → σ → Prop}
    (hround : ∀ value state next later, kept value state →
      round value state = some (next, later) → kept next later)
    (bound : Nat) {value : β} {state : σ} (hkept : kept value state) :
    kept (repeatStep round bound value state).1 (repeatStep round bound value state).2 := by
  induction bound generalizing value state with
  | zero => exact hkept
  | succ bound ih =>
      rw [repeatStep]
      cases hone : round value state with
      | none => exact hkept
      | some next => exact ih (hround _ _ _ _ hkept hone)

variable {τ : Type u} {α : Type v}

/-- The end of a program agrees with the answer of a reader. -/
def Follows (agrees : β → σ → α → List τ → Prop) (failed : σ → Prop) (result : β × σ) :
    Option (α × List τ) → Prop
  | none => failed result.2
  | some answer => agrees result.1 result.2 answer.1 answer.2

/-- One round agrees with one step. -/
def FollowsStep (agrees : β → σ → α → List τ → Prop) (failed : σ → Prop) (input : List τ) :
    Option (β × σ) → Option (Option (α × List τ)) → Prop
  | some result, none => failed result.2
  | none, some none => True
  | some result, some (some answer) =>
      answer.2.length < input.length ∧ agrees result.1 result.2 answer.1 answer.2
  | _, _ => False

theorem follows_repeatStep {agrees : β → σ → α → List τ → Prop} {failed : σ → Prop}
    {step : α → List τ → Option (Option (α × List τ))}
    (hround : ∀ value state answer input, agrees value state answer input →
      FollowsStep agrees failed input (round value state) (step answer input))
    (hfailed : ∀ value state, failed state → round value state = none)
    (hempty : ∀ answer, step answer [] = some none)
    {value : β} {state : σ} {answer : α} {input : List τ} (hagrees : agrees value state answer input)
    {bound : Nat} (hbound : input.length ≤ bound) :
    Follows agrees failed (repeatStep round bound value state) (iterate step answer input) := by
  induction bound generalizing value state answer input with
  | zero =>
      obtain rfl := List.eq_nil_of_length_eq_zero (Nat.le_zero.mp hbound)
      rw [iterate_stop (hempty answer)]
      exact hagrees
  | succ bound ih =>
      have hone := hround value state answer input hagrees
      rw [repeatStep]
      cases hstep : step answer input with
      | none =>
          rw [iterate_fail hstep]
          cases hnext : round value state with
          | none => simp [FollowsStep, hstep, hnext] at hone
          | some next =>
              have hbad : failed next.2 := by simpa [FollowsStep, hstep, hnext] using hone
              simp only
              rw [repeatStep_stop (hfailed _ _ hbad)]
              exact hbad
      | some outcome =>
          cases outcome with
          | none =>
              rw [iterate_stop hstep]
              cases hnext : round value state with
              | none => exact hagrees
              | some next => simp [FollowsStep, hstep, hnext] at hone
          | some reached =>
              obtain ⟨reached, rest⟩ := reached
              cases hnext : round value state with
              | none => simp [FollowsStep, hstep, hnext] at hone
              | some next =>
                  obtain ⟨hshorter, hlater⟩ : rest.length < input.length ∧
                      agrees next.1 next.2 reached rest := by
                    simpa [FollowsStep, hstep, hnext] using hone
                  rw [iterate_next hstep hshorter]
                  exact ih hlater (by omega)

end Repeat

end Praktor.Math
