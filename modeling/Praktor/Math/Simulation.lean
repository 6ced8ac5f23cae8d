/-
# Runs of a specification

A specification answers a request in one of several ways, and says which states each answer may
leave.  A machine that answers as the specification allows, step by step, runs as the specification
does: the moments of every run of the machine are those of a run of the specification.
-/

import Mathlib.Data.List.Basic

namespace Praktor.Math

universe u v w x

variable {σ : Type u} {ι : Type v} {ω : Type w} {τ : Type x}

/-- A request with its reply, and the states before and after it. -/
structure Moment (σ : Type u) (ι : Type v) (ω : Type w) where
  before : σ
  request : ι
  reply : ω
  after : σ

/-- The moment as another view of the states shows it. -/
def Moment.seen (view : σ → τ) (moment : Moment σ ι ω) : Moment τ ι ω :=
  ⟨view moment.before, moment.request, moment.reply, view moment.after⟩

/-- The moments of a machine that answers requests one after the other. -/
def moments (step : σ → ι → σ × ω) : σ → List ι → List (Moment σ ι ω)
  | _, [] => []
  | state, request :: rest =>
      ⟨state, request, (step state request).2, (step state request).1⟩ ::
        moments step (step state request).1 rest

/-- The state that requests lead to. -/
def reached (step : σ → ι → σ × ω) (state : σ) (requests : List ι) : σ :=
  requests.foldl (fun state request => (step state request).1) state

/-- The runs of a specification. -/
inductive Trace (spec : τ → ι → ω → τ → Prop) : τ → List (Moment τ ι ω) → τ → Prop
  | done (state : τ) : Trace spec state [] state
  | step {before after last : τ} {request : ι} {reply : ω} {rest : List (Moment τ ι ω)}
      (hstep : spec before request reply after) (hrest : Trace spec after rest last) :
      Trace spec before (⟨before, request, reply, after⟩ :: rest) last

section Refinement

variable {step : σ → ι → σ × ω} {spec : τ → ι → ω → τ → Prop} {view : σ → τ} {holds : σ → Prop}

theorem moments_request (step : σ → ι → σ × ω) (state : σ) (requests : List ι) :
    (moments step state requests).map Moment.request = requests := by
  induction requests generalizing state with
  | nil => rfl
  | cons request rest ih => exact congrArg (request :: ·) (ih _)

/-- What every step keeps holds of every state that is reached. -/
theorem reached_holds (hkeeps : ∀ state request, holds state → holds (step state request).1)
    {state : σ} (hstate : holds state) (requests : List ι) : holds (reached step state requests) := by
  induction requests generalizing state with
  | nil => exact hstate
  | cons request rest ih => exact ih (hkeeps state request hstate)

/-- A machine whose steps are steps of the specification. -/
theorem moments_refine (hkeeps : ∀ state request, holds state → holds (step state request).1)
    (hspec : ∀ state request, holds state →
      spec (view state) request (step state request).2 (view (step state request).1))
    {state : σ} (hstate : holds state) (requests : List ι) :
    Trace spec (view state) ((moments step state requests).map (Moment.seen view))
      (view (reached step state requests)) := by
  induction requests generalizing state with
  | nil => exact .done _
  | cons request rest ih =>
      exact .step (hspec state request hstate) (ih (hkeeps state request hstate))

end Refinement

section Traces

variable {spec : τ → ι → ω → τ → Prop}

/-- Every moment of a run is a step. -/
theorem Trace.step_of_mem {start last : τ} {moments : List (Moment τ ι ω)}
    (htrace : Trace spec start moments last) {m : Moment τ ι ω} (hm : m ∈ moments) :
    spec m.before m.request m.reply m.after := by
  induction htrace with
  | done state => exact absurd hm List.not_mem_nil
  | step hstep _ ih =>
      rcases List.mem_cons.mp hm with rfl | hrest
      · exact hstep
      · exact ih hrest

/-- What every step keeps holds where a run ends. -/
theorem Trace.invariant {holds : τ → Prop}
    (hkeeps : ∀ before request reply after, spec before request reply after → holds before →
      holds after)
    {start last : τ} {moments : List (Moment τ ι ω)} (htrace : Trace spec start moments last)
    (hstart : holds start) : holds last := by
  induction htrace with
  | done state => exact hstart
  | step hstep _ ih => exact ih (hkeeps _ _ _ _ hstep hstart)

end Traces

end Praktor.Math
