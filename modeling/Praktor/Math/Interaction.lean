/-
# Programs that talk to a host

A program calls its host and goes by the replies.  Each call is written to a trace, and a
host is a function of the trace so far, so that its replies may depend in any way on what
was called before.  A program that polls may go on for ever: it is given a number of
rounds and pauses when they are used up, with the trace it has by then.

`Ensures` says what a computation ends in and what holds where it pauses, and the rules
below take a computation apart.
-/

import Praktor.Math.Run
import Mathlib.Data.List.Induction

namespace Praktor.Math

variable {σ α β ε : Type}

/-- A computation over a state that may pause. -/
abbrev Interaction (σ α : Type) := OptionT (StateM σ) α

namespace Interaction

/-- The result of a computation, if it came to one, and the state after it. -/
def outcome (program : Interaction σ α) (state : σ) : Option α × σ := StateT.run (OptionT.run program) state

/-- A loop that goes on until its body gives a result. -/
def repeatUntil : Nat → Interaction σ (Option α) → Interaction σ α
  | 0, _ => failure
  | rounds + 1, body => do
      match ← body with
      | some result => pure result
      | none => repeatUntil rounds body

/-- From `state` the computation ends in `post` or pauses in `pause`. -/
def Ensures (program : Interaction σ α) (post : α → σ → Prop) (pause : σ → Prop) (state : σ) :
    Prop :=
  match outcome program state with
  | (some result, next) => post result next
  | (none, next) => pause next

variable {post : α → σ → Prop} {pause : σ → Prop} {state : σ}

/-! ## Rules -/

@[simp]
theorem ensures_pure (value : α) :
    Ensures (pure value : Interaction σ α) post pause state ↔ post value state := Iff.rfl

@[simp]
theorem ensures_modifyGet (step : σ → α × σ) :
    Ensures (modifyGet step : Interaction σ α) post pause state ↔
      post (step state).1 (step state).2 := Iff.rfl

@[simp]
theorem ensures_get {post : σ → σ → Prop} :
    Ensures (get : Interaction σ σ) post pause state ↔ post state state := Iff.rfl

@[simp]
theorem ensures_failure :
    Ensures (failure : Interaction σ α) post pause state ↔ pause state := Iff.rfl

theorem outcome_bind (first : Interaction σ α) (second : α → Interaction σ β) (state : σ) :
    outcome (first >>= second) state =
      match outcome first state with
      | (some result, next) => outcome (second result) next
      | (none, next) => (none, next) := by
  unfold outcome
  rw [OptionT.run_bind, Option.elimM, StateT.run_bind]
  rcases StateT.run (OptionT.run first) state with ⟨result, next⟩
  cases result with
  | some value => rfl
  | none => rfl

theorem ensures_bind {post : β → σ → Prop} (first : Interaction σ α)
    (second : α → Interaction σ β) :
    Ensures (first >>= second) post pause state ↔
      Ensures first (fun result => Ensures (second result) post pause) pause state := by
  unfold Ensures
  rw [outcome_bind]
  rcases outcome first state with ⟨result, next⟩
  cases result with
  | some value => rfl
  | none => rfl

/-- What a computation ensures may be weakened. -/
theorem Ensures.mono {weaker : α → σ → Prop} {paused : σ → Prop} {program : Interaction σ α}
    (hpost : ∀ result next, post result next → weaker result next)
    (hpause : ∀ next, pause next → paused next) (hensures : Ensures program post pause state) :
    Ensures program weaker paused state := by
  unfold Ensures at hensures ⊢
  generalize outcome program state = reached at hensures ⊢
  obtain ⟨result, next⟩ := reached
  cases result with
  | some value => exact hpost value next hensures
  | none => exact hpause next hensures

/-- One computation after another. -/
theorem Ensures.bind {middle : α → σ → Prop} {post : β → σ → Prop} {first : Interaction σ α}
    {second : α → Interaction σ β} (hfirst : Ensures first middle pause state)
    (hsecond : ∀ result next, middle result next → Ensures (second result) post pause next) :
    Ensures (first >>= second) post pause state :=
  (ensures_bind first second).mpr (hfirst.mono hsecond fun _ hpause => hpause)

/-- What a round of a loop ends in: the loop is left or goes on. -/
def Round (post : α → σ → Prop) (invariant : σ → Prop) : Option α → σ → Prop
  | some result => post result
  | none => invariant

/-- A loop keeps what each round keeps. -/
theorem ensures_repeatUntil (invariant : σ → Prop) {body : Interaction σ (Option α)}
    (hround : ∀ state, invariant state → Ensures body (Round post invariant) pause state)
    (hpause : ∀ state, invariant state → pause state) (rounds : Nat) :
    ∀ state, invariant state → Ensures (repeatUntil rounds body) post pause state := by
  induction rounds with
  | zero => exact hpause
  | succ rounds ih =>
      intro state hstate
      apply (hround state hstate).bind
      intro result next hnext
      cases result with
      | some value => exact hnext
      | none => exact ih next hnext

/-! ## More rounds -/

end Interaction

/-! ## Traces -/

/-- Each event of a trace is justified by what came before it. -/
def Justified (justifies : List ε → ε → Prop) (trace : List ε) : Prop :=
  ∀ before event after, trace = before ++ event :: after → justifies before event

variable {justifies : List ε → ε → Prop} {trace : List ε}

theorem justified_nil : Justified justifies [] := by
  intro before event after hsplit
  simp at hsplit

/-- A trace stays justified with a justified event more. -/
theorem Justified.snoc (hprior : Justified justifies trace) {event : ε}
    (hlast : justifies trace event) : Justified justifies (trace ++ [event]) :=
  forall_split_append justifies hprior hlast

/-- A trace stays justified with more events that are justified where they stand. -/
theorem Justified.extend (hprior : Justified justifies trace) {tail : List ε}
    (htail : ∀ before event after, tail = before ++ event :: after →
      justifies (trace ++ before) event) : Justified justifies (trace ++ tail) := by
  induction tail generalizing trace with
  | nil => simpa using hprior
  | cons event rest ih =>
      have hfirst : justifies trace event := by simpa using htail [] event rest rfl
      have hrest := ih (hprior.snoc hfirst) fun before later after hsplit => by
        simpa using htail (event :: before) later after (by rw [hsplit, List.cons_append])
      simpa using hrest

/-- Events that are justified after anything leave a trace justified. -/
theorem Justified.append (hprior : Justified justifies trace) {tail : List ε}
    (htail : ∀ event ∈ tail, ∀ before, justifies before event) :
    Justified justifies (trace ++ tail) :=
  hprior.extend fun before event after hsplit => htail event (by simp [hsplit]) (trace ++ before)

theorem Justified.init {tail : List ε} (hjustified : Justified justifies (trace ++ tail)) :
    Justified justifies trace := by
  rintro before earlier after rfl
  exact hjustified before earlier (after ++ tail) (by simp)

theorem Justified.of_prefix {earlier : List ε} (hjustified : Justified justifies trace)
    (hinitial : earlier <+: trace) : Justified justifies earlier := by
  obtain ⟨tail, rfl⟩ := hinitial
  exact hjustified.init

/-- Events that are justified only while there is none of their kind happen once. -/
theorem Justified.at_most_once {kind : ε → Bool} (hjustified : Justified justifies trace)
    (hfirst : ∀ before event, justifies before event → kind event = true →
      ∀ earlier ∈ before, kind earlier = false) : (trace.filter kind).length ≤ 1 := by
  induction trace using List.reverseRecOn with
  | nil => simp
  | append_singleton prior event ih =>
      have hprior := ih hjustified.init
      rw [List.filter_append, List.length_append]
      cases hkind : kind event with
      | false => simpa [hkind] using hprior
      | true =>
          have hnone := hfirst prior event (hjustified prior event [] rfl) hkind
          have hempty : prior.filter kind = [] :=
            List.filter_eq_nil_iff.mpr fun earlier hearlier => by simp [hnone earlier hearlier]
          simp [hempty, hkind]

/-- What the latest event of a kind says. -/
def latest (view : ε → Option β) (trace : List ε) : Option β :=
  trace.reverse.findSome? view

variable {view : ε → Option β}

theorem latest_append (first second : List ε) :
    latest view (first ++ second) = (latest view second).or (latest view first) := by
  unfold latest
  rw [List.reverse_append, List.findSome?_append]

theorem latest_snoc (event : ε) :
    latest view (trace ++ [event]) = (view event).or (latest view trace) := by
  rw [latest_append]
  unfold latest
  rw [List.reverse_singleton, List.findSome?_singleton]

/-- The latest event of a kind, with nothing of the kind after it. -/
theorem latest_split {value : β} (hlatest : latest view trace = some value) :
    ∃ before event after, trace = before ++ event :: after ∧ view event = some value ∧
      ∀ later ∈ after, view later = none := by
  obtain ⟨after, event, before, hreverse, hview, hafter⟩ :=
    List.findSome?_eq_some_iff.mp hlatest
  refine ⟨before.reverse, event, after.reverse, ?_, hview, ?_⟩
  · have htrace := congrArg List.reverse hreverse
    simpa using htrace
  · exact fun later hlater => hafter later (List.mem_reverse.mp hlater)

end Praktor.Math
