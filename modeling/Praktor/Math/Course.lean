/-
# Computations that remember their course

A computation on a state may keep every state it goes through.  Then an invariant can be claimed
of all of them, also of those before a failure, and the rules below derive such a claim step by
step: what is assumed where a computation starts, what holds where it succeeds and where it fails,
and what holds at every state on the way.
-/

import Praktor.Math.Stateful

namespace Praktor.Math

universe u

variable {σ ε α β : Type u}

/-- A state and the states before it, oldest first. -/
structure Course (σ : Type u) where
  past : List σ
  now : σ

/-- The course that begins here. -/
def Course.start (state : σ) : Course σ := ⟨[], state⟩

/-- Every state of the course. -/
def Course.states (course : Course σ) : List σ := course.past ++ [course.now]

/-- A computation that remembers its course. -/
abbrev Coursed (σ ε : Type u) := Stateful (Course σ) ε

namespace Coursed

/-- Go on to another state. -/
def step (change : σ → σ) : Coursed σ ε PUnit :=
  modify fun course => ⟨course.past ++ [course.now], change course.now⟩

/-- The state now. -/
def current : Coursed σ ε σ := do
  let course ← get
  pure course.now

/-- Clean up after a failure, which stays one. -/
def guarded (program : Coursed σ ε α) (cleanup : Coursed σ ε PUnit) : Coursed σ ε α :=
  tryCatch program fun code => do
    cleanup
    throw code

/-- Started where `before` holds, a computation goes only through states where `always` holds;
where it succeeds `after` holds of its result, and where it fails `failed` holds. -/
def Meets (always before : σ → Prop) (program : Coursed σ ε α) (after : α → σ → Prop)
    (failed : σ → Prop) : Prop :=
  ∀ course, (∀ state ∈ course.past, always state) → before course.now →
    (∀ state ∈ (Stateful.on program course).2.past, always state) ∧
      match (Stateful.on program course).1 with
      | .ok value => after value (Stateful.on program course).2.now
      | .error _ => failed (Stateful.on program course).2.now

section Rules

variable {always before failed : σ → Prop} {after : α → σ → Prop}

theorem Meets.pure {value : α} (hvalue : ∀ state, before state → after value state) :
    Meets always before (pure value : Coursed σ ε α) after failed :=
  fun _ hpast hnow => ⟨hpast, hvalue _ hnow⟩

theorem Meets.throw {code : ε} (hfailed : ∀ state, before state → failed state) :
    Meets always before (throw code : Coursed σ ε α) after failed :=
  fun _ hpast hnow => ⟨hpast, hfailed _ hnow⟩

theorem Meets.bind {first : Coursed σ ε α} {second : α → Coursed σ ε β}
    {between : α → σ → Prop} {last : β → σ → Prop}
    (hfirst : Meets always before first between failed)
    (hsecond : ∀ value, Meets always (between value) (second value) last failed) :
    Meets always before (first >>= second) last failed := by
  intro course hpast hnow
  obtain ⟨hmiddle, hresult⟩ := hfirst course hpast hnow
  rw [Stateful.on_bind]
  generalize Stateful.on first course = run at hmiddle hresult ⊢
  rcases run with ⟨code | value, next⟩
  · exact ⟨hmiddle, hresult⟩
  · exact hsecond value next hmiddle hresult

theorem Meets.step {change : σ → σ} (after : PUnit → σ → Prop)
    (halways : ∀ state, before state → always state)
    (hchange : ∀ state, before state → after ⟨⟩ (change state)) :
    Meets always before (step change : Coursed σ ε PUnit) after failed := by
  intro course hpast hnow
  refine ⟨?_, hchange _ hnow⟩
  intro state hstate
  obtain hold | hlast := List.mem_append.mp hstate
  · exact hpast state hold
  · rw [List.mem_singleton.mp hlast]
    exact halways _ hnow

theorem Meets.current : Meets always before (current : Coursed σ ε σ)
    (fun value state => value = state ∧ before state) failed :=
  fun _ hpast hnow => ⟨hpast, rfl, hnow⟩

theorem Meets.conseq {stronger harsher : σ → Prop} {weaker : α → σ → Prop}
    {program : Coursed σ ε α} (hmeets : Meets always before program after harsher)
    (hbefore : ∀ state, stronger state → before state)
    (hafter : ∀ value state, after value state → weaker value state)
    (hfailed : ∀ state, harsher state → failed state) :
    Meets always stronger program weaker failed := by
  intro course hpast hnow
  obtain ⟨hstates, hresult⟩ := hmeets course hpast (hbefore _ hnow)
  refine ⟨hstates, ?_⟩
  generalize Stateful.on program course = run at hresult ⊢
  rcases run with ⟨code | value, next⟩
  · exact hfailed _ hresult
  · exact hafter value _ hresult

theorem Meets.ite {condition : Prop} [Decidable condition] {first second : Coursed σ ε α}
    (hfirst : condition → Meets always before first after failed)
    (hsecond : ¬ condition → Meets always before second after failed) :
    Meets always before (if condition then first else second) after failed := by
  split
  next hcondition => exact hfirst hcondition
  next hcondition => exact hsecond hcondition

/-- Something that exists at the first state may be named. -/
theorem Meets.exists {ι : Sort*} {start : ι → σ → Prop} {program : Coursed σ ε α}
    (hmeets : ∀ item, Meets always (start item) program after failed) :
    Meets always (fun state => ∃ item, start item state) program after failed :=
  fun course hpast ⟨item, hitem⟩ => hmeets item course hpast hitem

/-- A fact that holds at the first state may be used throughout. -/
theorem Meets.given {fact : Prop} {program : Coursed σ ε α}
    (hmeets : fact → Meets always before program after failed) :
    Meets always (fun state => fact ∧ before state) program after failed :=
  fun course hpast ⟨hfact, hnow⟩ => hmeets hfact course hpast hnow

/-- After a failure the cleanup goes on from a state that the failure left. -/
theorem Meets.guarded {fallen : σ → Prop} {program : Coursed σ ε α} {cleanup : Coursed σ ε PUnit}
    (hprogram : Meets always before program after fallen)
    (hcleanup : Meets always fallen cleanup (fun _ => failed) failed) :
    Meets always before (guarded program cleanup) after failed := by
  intro course hpast hnow
  obtain ⟨hstates, hresult⟩ := hprogram course hpast hnow
  have hrun : Stateful.on (Coursed.guarded program cleanup) course =
      match Stateful.on program course with
      | (.ok value, next) => (.ok value, next)
      | (.error code, next) =>
          Stateful.on (do cleanup; MonadExcept.throw code : Coursed σ ε α) next := by
    unfold Coursed.guarded Stateful.on
    rw [ExceptT.run_tryCatch, StateT.run_bind]
    rcases StateT.run (ExceptT.run program) course with ⟨result, next⟩
    cases result with
    | ok value => rfl
    | error code => rfl
  rw [hrun]
  generalize Stateful.on program course = run at hstates hresult ⊢
  rcases run with ⟨code | value, next⟩
  · have hthrow : Meets always fallen (do cleanup; MonadExcept.throw code : Coursed σ ε α) after
        failed := hcleanup.bind fun _ => Meets.throw fun _ hstate => hstate
    exact hthrow next hstates hresult
  · exact ⟨hstates, hresult⟩

/-- A loop keeps what each of its rounds keeps of the rounds that are done. -/
theorem Meets.forM {ι : Type*} {items : List ι} {body : ι → Coursed σ ε PUnit}
    (done : List ι → σ → Prop)
    (hbody : ∀ before item, before ++ [item] <+: items →
      Meets always (done before) (body item) (fun _ => done (before ++ [item])) failed) :
    Meets always (done []) (items.forM body) (fun _ => done items) failed := by
  have hrest : ∀ rest before, before ++ rest = items →
      Meets always (done before) (rest.forM body) (fun _ => done items) failed := by
    intro rest
    induction rest with
    | nil =>
        intro before hsplit
        rw [List.append_nil] at hsplit
        subst hsplit
        exact Meets.pure fun _ hstate => hstate
    | cons item rest ih =>
        intro before hsplit
        have hprefix : before ++ [item] <+: items := ⟨rest, by simpa using hsplit⟩
        rw [List.forM_eq_forM, List.forM_cons]
        exact (hbody before item hprefix).bind fun _ => ih (before ++ [item]) (by simpa using hsplit)
  exact hrest items [] rfl

/-- A claim about a computation is a claim about every state of its course. -/
theorem Meets.states {program : Coursed σ ε α} (hmeets : Meets always before program after failed)
    (hafter : ∀ value state, after value state → always state)
    (hfailed : ∀ state, failed state → always state) {course : Course σ}
    (hpast : ∀ state ∈ course.past, always state) (hstart : before course.now) :
    ∀ reached ∈ (Stateful.on program course).2.states, always reached := by
  obtain ⟨hstates, hresult⟩ := hmeets course hpast hstart
  intro reached hreached
  obtain hearlier | hlast := List.mem_append.mp hreached
  · exact hstates reached hearlier
  · rw [List.mem_singleton.mp hlast]
    generalize Stateful.on program course = run at hresult ⊢
    rcases run with ⟨code | value, next⟩
    · exact hfailed _ hresult
    · exact hafter value _ hresult

/-- What holds where a computation succeeds and where it fails holds where it ends. -/
theorem Meets.ends {program : Coursed σ ε α} {last : σ → Prop}
    (hmeets : Meets always before program (fun _ => last) last) {course : Course σ}
    (hpast : ∀ state ∈ course.past, always state) (hstart : before course.now) :
    last (Stateful.on program course).2.now := by
  have hresult := (hmeets course hpast hstart).2
  generalize Stateful.on program course = run at hresult ⊢
  rcases run with ⟨code | value, next⟩
  · exact hresult
  · exact hresult

end Rules

end Coursed

end Praktor.Math
