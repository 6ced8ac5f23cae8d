/-
# What a computation leads to

A claim about a computation at one state: what holds of its result and of the state it leaves when
it succeeds, and of the state it leaves when it fails.  A computation is followed from its first
step to its last, and a failure at any step is a failure of the whole.
-/

import Praktor.Math.Stateful

namespace Praktor.Math.Stateful

universe u

variable {σ ε α β : Type u}

/-- From this state, the computation succeeds as `after` says or fails as `failed` says. -/
def Leads (state : σ) (program : Stateful σ ε α) (after : α → σ → Prop) (failed : σ → Prop) : Prop :=
  match on program state with
  | (.ok value, next) => after value next
  | (.error _, next) => failed next

section Rules

variable {state : σ} {after : α → σ → Prop} {failed : σ → Prop} {program : Stateful σ ε α}

theorem Leads.of_ok {value : α} {next : σ} (hrun : on program state = (.ok value, next))
    (hafter : after value next) : Leads state program after failed := by
  rw [Leads, hrun]
  exact hafter

/-- Two computations that do the same from here. -/
theorem Leads.congr {other : Stateful σ ε α} (hsame : on program state = on other state)
    (hleads : Leads state other after failed) : Leads state program after failed := by
  rw [Leads, hsame]
  exact hleads

theorem Leads.pure {value : α} (hafter : after value state) :
    Leads state (pure value : Stateful σ ε α) after failed := hafter

theorem Leads.throw {code : ε} (hfailed : failed state) :
    Leads state (throw code : Stateful σ ε α) after failed := hfailed

theorem Leads.modify {after : PUnit → σ → Prop} {change : σ → σ} (hafter : after ⟨⟩ (change state)) :
    Leads state (modify change : Stateful σ ε PUnit) after failed := hafter

theorem Leads.bind {first : Stateful σ ε α} {second : α → Stateful σ ε β} {last : β → σ → Prop}
    (hfirst : Leads state first after failed)
    (hsecond : ∀ value next, after value next → Leads next (second value) last failed) :
    Leads state (first >>= second) last failed := by
  rw [Leads, on_bind]
  rw [Leads] at hfirst
  generalize on first state = run at hfirst ⊢
  rcases run with ⟨code | value, next⟩
  · exact hfirst
  · exact hsecond value next hfirst

/-- A step of which the outcome is known. -/
theorem Leads.step {first : Stateful σ ε α} {second : α → Stateful σ ε β} {value : α} {next : σ}
    {last : β → σ → Prop} (hfirst : on first state = (.ok value, next))
    (hsecond : Leads next (second value) last failed) :
    Leads state (first >>= second) last failed := by
  rw [Leads, on_bind_ok hfirst]
  exact hsecond

theorem Leads.ite {condition : Prop} [Decidable condition] {first second : Stateful σ ε α}
    (hfirst : condition → Leads state first after failed)
    (hsecond : ¬ condition → Leads state second after failed) :
    Leads state (if condition then first else second) after failed := by
  split
  next hcondition => exact hfirst hcondition
  next hcondition => exact hsecond hcondition

theorem Leads.mono {wider : α → σ → Prop} {milder : σ → Prop}
    (hleads : Leads state program after failed)
    (hafter : ∀ value next, after value next → wider value next)
    (hfailed : ∀ next, failed next → milder next) : Leads state program wider milder := by
  rw [Leads] at hleads ⊢
  generalize on program state = run at hleads ⊢
  rcases run with ⟨code | value, next⟩
  · exact hfailed next hleads
  · exact hafter value next hleads

/-- A failure is told in other words. -/
theorem Leads.failing {milder : σ → Prop} (hleads : Leads state program after failed)
    (hfailed : ∀ next, failed next → milder next) : Leads state program after milder :=
  hleads.mono (fun _ _ hafter => hafter) hfailed

theorem on_tryCatch (program : Stateful σ ε α) (handle : ε → Stateful σ ε α) (state : σ) :
    on (tryCatch program handle) state =
      match on program state with
      | (.ok value, next) => (.ok value, next)
      | (.error code, next) => on (handle code) next := by
  unfold on
  show StateT.run (ExceptT.run (ExceptT.tryCatch program handle)) state = _
  unfold ExceptT.tryCatch
  show StateT.run (ExceptT.run program >>= _) state = _
  rw [StateT.run_bind]
  rcases StateT.run (ExceptT.run program) state with ⟨result, next⟩
  cases result with
  | ok value => rfl
  | error code => rfl

/-- What is done after a failure starts at the state that the failure left. -/
theorem Leads.tryCatch {handle : ε → Stateful σ ε α} {fallen : σ → Prop}
    (hprogram : Leads state program after fallen)
    (hhandle : ∀ code next, fallen next → Leads next (handle code) after failed) :
    Leads state (tryCatch program handle) after failed := by
  rw [Leads, on_tryCatch]
  rw [Leads] at hprogram
  generalize on program state = run at hprogram ⊢
  rcases run with ⟨code | value, next⟩
  · exact hhandle code next hprogram
  · exact hprogram

end Rules

end Praktor.Math.Stateful
