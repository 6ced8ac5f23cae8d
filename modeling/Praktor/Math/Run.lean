/-
# Runs of a machine that answers requests

A component with a mutable state is a step function from a state and a request to
the next state and a reply.  Refused requests are steps too: they answer with an
error and usually leave the state alone.  A run records every request with its
reply, oldest first, so that a statement about "what has happened so far" is a
statement about the recorded history and not about extra state.
-/

import Mathlib.Data.List.Basic

namespace Praktor.Math

universe u v w

variable {σ : Type u} {ι : Type v} {ω : Type w}

/-- The states a machine reaches from `init`, with the history of the run. -/
inductive Run (step : σ → ι → σ × ω) (init : σ) : List (ι × ω) → σ → Prop
  | start : Run step init [] init
  | extend {history : List (ι × ω)} {state : σ} (prior : Run step init history state)
      (request : ι) :
      Run step init (history ++ [(request, (step state request).2)]) (step state request).1

variable {step : σ → ι → σ × ω} {init : σ}

/-- What holds at the start and survives every step holds along every run. -/
theorem Run.invariant (holds : List (ι × ω) → σ → Prop) (hinit : holds [] init)
    (hstep : ∀ history state request, Run step init history state → holds history state →
      holds (history ++ [(request, (step state request).2)]) (step state request).1)
    {history : List (ι × ω)} {state : σ} (hrun : Run step init history state) :
    holds history state := by
  induction hrun with
  | start => exact hinit
  | extend prior request ih => exact hstep _ _ request prior ih

/-- A run may be continued by a run from the state it reached. -/
theorem Run.append {history rest : List (ι × ω)} {state last : σ}
    (hrun : Run step init history state) (hrest : Run step state rest last) :
    Run step init (history ++ rest) last := by
  induction hrest with
  | start => simpa using hrun
  | extend prior request ih => simpa [List.append_assoc] using ih.extend request

/-- A single step is a run. -/
theorem Run.single (step : σ → ι → σ × ω) (state : σ) (request : ι) :
    Run step state [(request, (step state request).2)] (step state request).1 :=
  Run.extend .start request

/-- What holds of every entry of a history and the entries before it, with one entry
more. -/
theorem forall_split_append {α : Type u} (holds : List α → α → Prop) {history : List α} {last : α}
    (hprior : ∀ before entry after, history = before ++ entry :: after → holds before entry)
    (hlast : holds history last) (before : List α) (entry : α) (after : List α)
    (hsplit : history ++ [last] = before ++ entry :: after) : holds before entry := by
  rcases List.eq_nil_or_concat after with rfl | ⟨rest, final, rfl⟩
  · obtain ⟨rfl, hentry⟩ := List.append_inj' hsplit rfl
    obtain rfl : last = entry := by simpa using hentry
    exact hlast
  · have hshorter : history ++ [last] = (before ++ entry :: rest) ++ [final] := by
      simpa using hsplit
    exact hprior before entry rest (List.append_inj' hshorter rfl).1

/-- The state after serving a list of requests. -/
def drive (step : σ → ι → σ × ω) (init : σ) (requests : List ι) : σ :=
  requests.foldl (fun state request => (step state request).1) init

/-- The replies to a list of requests, in order. -/
def answers (step : σ → ι → σ × ω) : σ → List ι → List ω
  | _, [] => []
  | state, request :: rest => (step state request).2 :: answers step (step state request).1 rest

/-- Two machines that stay related and reply alike reply alike to every list. -/
theorem answers_eq_of_related {τ : Type u} {ι' : Type v} {step' : τ → ι' → τ × ω}
    (related : σ → τ → Prop) (encode : ι → ι')
    (hstep : ∀ state state' request, related state state' →
      related (step state request).1 (step' state' (encode request)).1 ∧
        (step state request).2 = (step' state' (encode request)).2) :
    ∀ (requests : List ι) (state : σ) (state' : τ), related state state' →
      answers step state requests = answers step' state' (requests.map encode) ∧
        related (drive step state requests) (drive step' state' (requests.map encode)) := by
  intro requests
  induction requests with
  | nil => exact fun _ _ hrelated => ⟨rfl, hrelated⟩
  | cons request rest ih =>
      intro state state' hrelated
      obtain ⟨hnext, hreply⟩ := hstep state state' request hrelated
      obtain ⟨hanswers, hlast⟩ := ih _ _ hnext
      exact ⟨by simp only [answers, List.map_cons, hreply, hanswers], hlast⟩

/-- Serving a list of requests is a run. -/
theorem run_drive (step : σ → ι → σ × ω) (init : σ) (requests : List ι) :
    Run step init (requests.zip (answers step init requests)) (drive step init requests) := by
  induction requests generalizing init with
  | nil => exact .start
  | cons request rest ih => exact (Run.single step init request).append (ih (step init request).1)

/-! ## Events of a run -/

/-- Something happens while a list of requests is served; an event is seen from the state,
the request and the reply. -/
def occurs (step : σ → ι → σ × ω) (event : σ → ι → ω → Prop) : σ → List ι → Prop
  | _, [] => False
  | state, request :: rest =>
      event state request (step state request).2 ∨ occurs step event (step state request).1 rest

instance decidableOccurs (step : σ → ι → σ × ω) (event : σ → ι → ω → Prop)
    [∀ state request reply, Decidable (event state request reply)] :
    (state : σ) → (requests : List ι) → Decidable (occurs step event state requests)
  | _, [] => instDecidableFalse
  | state, request :: rest =>
      have := decidableOccurs step event (step state request).1 rest
      inferInstanceAs (Decidable (_ ∨ _))

variable {event : σ → ι → ω → Prop}

theorem drive_append (step : σ → ι → σ × ω) (init : σ) (first second : List ι) :
    drive step init (first ++ second) = drive step (drive step init first) second :=
  List.foldl_append

theorem occurs_append {first second : List ι} :
    occurs step event init (first ++ second) ↔
      occurs step event init first ∨ occurs step event (drive step init first) second := by
  induction first generalizing init with
  | nil => simp [occurs, drive]
  | cons request rest ih => simp [occurs, ih, drive, or_assoc]

/-- What holds at the start and survives every step holds after every list of requests. -/
theorem drive_invariant (holds : σ → Prop) (hstep : ∀ state request, holds state →
    holds (step state request).1) (requests : List ι) (hinit : holds init) :
    holds (drive step init requests) := by
  induction requests generalizing init with
  | nil => exact hinit
  | cons request rest ih => exact ih (hstep init request hinit)

/-- As long as an event does not occur, what survives every other step is kept. -/
theorem drive_of_not_occurs (holds : σ → Prop)
    (hstep : ∀ state request, holds state → ¬ event state request (step state request).2 →
      holds (step state request).1)
    (requests : List ι) (hquiet : ¬ occurs step event init requests) (hinit : holds init) :
    holds (drive step init requests) := by
  induction requests generalizing init with
  | nil => exact hinit
  | cons request rest ih =>
      obtain ⟨hhere, hrest⟩ := not_or.mp hquiet
      exact ih hrest (hstep init request hinit hhere)

/-! ## Fallible computations -/

/-- A fallible computation succeeds when both of its halves do. -/
theorem except_bind_eq_ok {ε : Type u} {α : Type v} {β : Type v} {first : Except ε α}
    {second : α → Except ε β} {result : β} :
    (first >>= second) = .ok result ↔ ∃ value, first = .ok value ∧ second value = .ok result := by
  cases first with
  | error failure => simp [bind, Except.bind]
  | ok value => simp [bind, Except.bind]

/-- A fallible map gives every element its result. -/
theorem mapM_eq_ok {ε : Type u} {α : Type w} {β : Type v} {read : α → Except ε β} {items : List α}
    {results : List β} (hread : items.mapM read = .ok results) :
    List.Forall₂ (fun item result => read item = .ok result) items results := by
  induction items generalizing results with
  | nil =>
      obtain rfl := Except.ok.inj hread
      exact .nil
  | cons item rest ih =>
      rw [List.mapM_cons] at hread
      obtain ⟨result, hitem, hread⟩ := except_bind_eq_ok.mp hread
      obtain ⟨others, hrest, hread⟩ := except_bind_eq_ok.mp hread
      obtain rfl := Except.ok.inj hread
      exact .cons hitem (ih hrest)

/-- A check succeeds on a list exactly when it does on every element. -/
theorem forM_eq_ok {ε : Type u} {α : Type v} {check : α → Except ε PUnit.{v + 1}} {items : List α} :
    items.forM check = .ok ⟨⟩ ↔ ∀ item ∈ items, check item = .ok ⟨⟩ := by
  induction items with
  | nil => simp [List.forM, pure, Except.pure]
  | cons item rest ih =>
      change (check item >>= fun _ => rest.forM check) = .ok ⟨⟩ ↔ _
      rw [except_bind_eq_ok, List.forall_mem_cons, ← ih]
      exact ⟨fun ⟨_, hitem, hrest⟩ => ⟨hitem, hrest⟩, fun hboth => ⟨⟨⟩, hboth⟩⟩

/-- What stands at a place of one list is related to what stands there in the other. -/
theorem forall₂_getElem? {α : Type u} {β : Type v} {related : α → β → Prop} {first : List α}
    {second : List β} (hall : List.Forall₂ related first second) {place : Nat} {item : α}
    (hitem : first[place]? = some item) :
    ∃ other, second[place]? = some other ∧ related item other := by
  induction hall generalizing place with
  | nil => simp at hitem
  | cons hhead _ ih =>
      cases place with
      | zero =>
          obtain rfl := Option.some.inj hitem
          exact ⟨_, rfl, hhead⟩
      | succ place => exact ih hitem

/-- A fallible computation succeeds exactly when its input is admitted, and its failures are
of one kind. -/
def Decides {ε : Type u} {α : Type v} (kind : ε → Prop) (result : Except ε α) (admitted : Prop) :
    Prop :=
  (admitted ∧ ∃ value, result = .ok value) ∨ (¬ admitted ∧ ∃ failure, result = .error failure ∧ kind failure)

section Decisions

variable {ε : Type u} {kind : ε → Prop} {admitted admitted' : Prop}

theorem Decides.iff {α : Type v} {result : Except ε α} (hdecides : Decides kind result admitted)
    (hiff : admitted ↔ admitted') : Decides kind result admitted' := by
  rwa [Decides, ← hiff]

/-- Two checks one after the other. -/
theorem Decides.bind {first second : Except ε PUnit.{v + 1}} (hfirst : Decides kind first admitted)
    (hsecond : Decides kind second admitted') :
    Decides kind (first >>= fun _ => second) (admitted ∧ admitted') := by
  rcases hfirst with ⟨hadmitted, _, rfl⟩ | ⟨hrefused, failure, rfl, hkind⟩
  · exact hsecond.iff (by simp [hadmitted])
  · exact .inr ⟨fun hboth => hrefused hboth.1, failure, rfl, hkind⟩

/-- The same check for every element of a list. -/
theorem decides_forM {α : Type v} {check : α → Except ε PUnit.{v + 1}} {holds : α → Prop}
    (hcheck : ∀ item, Decides kind (check item) (holds item)) (items : List α) :
    Decides kind (items.forM check) (∀ item ∈ items, holds item) := by
  induction items with
  | nil => exact .inl ⟨by simp, _, rfl⟩
  | cons item rest ih =>
      apply ((hcheck item).bind ih).iff
      simp

end Decisions

/-- Two fallible computations succeed alike: with related results, or neither of them. -/
inductive Agree {ε : Type u} {α : Type v} {β : Type w} (related : α → β → Prop) :
    Except ε α → Except ε β → Prop
  | error (first second : ε) : Agree related (.error first) (.error second)
  | ok {first : α} {second : β} : related first second → Agree related (.ok first) (.ok second)

namespace Agree

variable {ε : Type u} {α : Type v} {β : Type w}

theorem refl {α : Type v} (result : Except ε α) : Agree Eq result result := by
  cases result with
  | error failure => exact .error _ _
  | ok value => exact .ok rfl

theorem bind {γ : Type v} {δ : Type w} {related : α → β → Prop} {later : γ → δ → Prop}
    {first : Except ε α} {second : Except ε β} {next : α → Except ε γ} {next' : β → Except ε δ}
    (hfirst : Agree related first second)
    (hnext : ∀ value value', related value value' → Agree later (next value) (next' value')) :
    Agree later (first >>= next) (second >>= next') := by
  cases hfirst with
  | error failure failure' => exact .error failure failure'
  | ok hrelated => exact hnext _ _ hrelated

theorem foldlM {γ δ : Type*} {items : List γ} {items' : List δ} {alike : γ → δ → Prop}
    {related : α → β → Prop} {step : α → γ → Except ε α} {step' : β → δ → Except ε β}
    (hitems : List.Forall₂ alike items items')
    (hstep : ∀ state state' item item', related state state' → alike item item' →
      Agree related (step state item) (step' state' item')) {state : α} {state' : β}
    (hstate : related state state') :
    Agree related (items.foldlM step state) (items'.foldlM step' state') := by
  induction hitems generalizing state state' with
  | nil => exact .ok hstate
  | cons hitem _ ih =>
      rw [List.foldlM_cons, List.foldlM_cons]
      exact (hstep _ _ _ _ hstate hitem).bind fun _ _ hrelated => ih hrelated

end Agree

/-- The result of a computation that succeeds. -/
def valueOf {ε : Type u} {α : Type v} : (result : Except ε α) → result.isOk = true → α
  | .ok value, _ => value

theorem eq_ok_valueOf {ε : Type u} {α : Type v} {result : Except ε α} (hok : result.isOk = true) :
    result = .ok (valueOf result hok) := by
  cases result with
  | error failure => simp [Except.isOk, Except.toBool] at hok
  | ok value => rfl

theorem exists_eq_ok {ε : Type u} {α : Type v} {result : Except ε α} (hok : result.isOk = true) :
    ∃ value, result = .ok value :=
  ⟨valueOf result hok, eq_ok_valueOf hok⟩

end Praktor.Math
