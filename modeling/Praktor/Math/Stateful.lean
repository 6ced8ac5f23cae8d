/-
# Computations that fail and keep a state

A computation that fails leaves the state as it was when it failed.  Its run is taken apart one
step at a time, and what every step keeps is kept by the whole.
-/

import Mathlib.Init

namespace Praktor.Math

universe u

variable {σ ε α β : Type u}

/-- A computation on a state that may fail. -/
abbrev Stateful (σ ε : Type u) := ExceptT ε (StateM σ)

namespace Stateful

/-- What a computation returns on a state, and the state it leaves. -/
def on (program : Stateful σ ε α) (state : σ) : Except ε α × σ :=
  StateT.run (ExceptT.run program) state

/-! ## Steps -/

theorem on_bind (first : Stateful σ ε α) (second : α → Stateful σ ε β) (state : σ) :
    on (first >>= second) state =
      match on first state with
      | (.ok value, next) => on (second value) next
      | (.error code, next) => (.error code, next) := by
  unfold on
  rw [ExceptT.run_bind, StateT.run_bind]
  rcases StateT.run (ExceptT.run first) state with ⟨result, next⟩
  cases result with
  | ok value => rfl
  | error code => rfl

@[simp]
theorem on_pure (value : α) (state : σ) :
    on (pure value : Stateful σ ε α) state = (.ok value, state) := rfl

@[simp]
theorem on_throw (code : ε) (state : σ) :
    on (throw code : Stateful σ ε α) state = (.error code, state) := rfl

@[simp]
theorem on_get (state : σ) : on (get : Stateful σ ε σ) state = (.ok state, state) := rfl

@[simp]
theorem on_modify (change : σ → σ) (state : σ) :
    on (modify change : Stateful σ ε PUnit) state = (.ok ⟨⟩, change state) := rfl

section Steps

variable {first : Stateful σ ε α} {second : α → Stateful σ ε β} {state next : σ}

/-- What follows a step that succeeds. -/
theorem on_bind_ok {value : α} (hfirst : on first state = (.ok value, next)) :
    on (first >>= second) state = on (second value) next := by
  rw [on_bind, hfirst]

/-- Nothing follows a step that fails. -/
theorem on_bind_error {code : ε} (hfirst : on first state = (.error code, next)) :
    on (first >>= second) state = (.error code, next) := by
  rw [on_bind, hfirst]

end Steps

/-! ## What is kept -/

/-- A relation of a state to the states after it. -/
structure Frame (related : σ → σ → Prop) : Prop where
  refl : ∀ state, related state state
  trans : ∀ {first second third}, related first second → related second third → related first third

/-- The state that a computation leaves is related to the one before. -/
def Keeps (related : σ → σ → Prop) (program : Stateful σ ε α) : Prop :=
  ∀ state, related state (on program state).2

section Keeping

variable {related : σ → σ → Prop} (hframe : Frame related)

include hframe

theorem Keeps.pure (value : α) : Keeps related (pure value : Stateful σ ε α) :=
  fun state => hframe.refl state

theorem Keeps.throw (code : ε) : Keeps related (throw code : Stateful σ ε α) :=
  fun state => hframe.refl state

theorem Keeps.get : Keeps related (get : Stateful σ ε σ) := fun state => hframe.refl state

theorem Keeps.bind {first : Stateful σ ε α} {second : α → Stateful σ ε β}
    (hfirst : Keeps related first) (hsecond : ∀ value, Keeps related (second value)) :
    Keeps related (first >>= second) := by
  intro state
  have hstart := hfirst state
  rw [on_bind]
  generalize on first state = run at hstart ⊢
  rcases run with ⟨code | value, next⟩
  · exact hstart
  · exact hframe.trans hstart (hsecond value next)

omit hframe in
theorem Keeps.ite {condition : Prop} [Decidable condition] {first second : Stateful σ ε α}
    (hfirst : Keeps related first) (hsecond : Keeps related second) :
    Keeps related (if condition then first else second) := by
  split
  · exact hfirst
  · exact hsecond

end Keeping

theorem Keeps.modify {related : σ → σ → Prop} {change : σ → σ}
    (hchange : ∀ state, related state (change state)) :
    Keeps related (modify change : Stateful σ ε PUnit) := hchange

end Stateful

end Praktor.Math
