/-
# What the worker of a process shows

Whatever the order in which the worker's steps and the calls of others come: the state only
goes forward, one cancellation is accepted at most and none once the worker has completed, a
cancelled worker does not end as if its process had ended by itself, a cancellation before the
admission keeps the process from being spawned or has it terminated, and a result is given once
the worker has completed and agrees with the state it ended in.
-/

import Praktor.Process.ProcessWorker
import Praktor.Math.Interaction

namespace Praktor.Process

open Praktor.Data Praktor.Math

/-! ## The order of states -/

/-- How far a state is. -/
def WorkerStatus.rank : WorkerStatus → Nat
  | .starting => 0
  | .running => 1
  | .cancelling => 2
  | _ => 3

/-- A state that a worker ends in. -/
def WorkerStatus.isTerminal (state : WorkerStatus) : Prop := state.rank = 3

/-- A state is reached from another by going forward, or it is the same. -/
def WorkerStatus.Before (first second : WorkerStatus) : Prop :=
  first = second ∨ first.rank < second.rank

theorem WorkerStatus.Before.trans {first second third : WorkerStatus}
    (hfirst : first.Before second) (hsecond : second.Before third) : first.Before third := by
  rcases hfirst with rfl | hfirst
  · exact hsecond
  rcases hsecond with rfl | hsecond
  · exact .inr hfirst
  · exact .inr (Nat.lt_trans hfirst hsecond)

theorem terminal_isTerminal (state : NativeState) : (terminal state).isTerminal := by
  cases state <;> rfl

theorem endState_isTerminal (spawned : Bool) (code : Salts) (driver : DriverState) :
    (endState spawned code driver).isTerminal := by
  unfold endState
  split
  · rfl
  split
  · rfl
  split
  · rfl
  · exact terminal_isTerminal _

/-- A state that has a diagnostic. -/
theorem diagnostic_isSome (state : WorkerStatus) : (diagnostic state).isSome = true ↔
    state = .timedOut ∨ state = .cancelled ∨ state = .outputLimitExceeded ∨ state = .waitFailed := by
  cases state <;> simp [diagnostic]

/-! ## What a trace tells -/

namespace WorkerEvent

/-- The state that a caller sees. -/
def observed : WorkerEvent → Option WorkerStatus
  | asked state => some state
  | viewed (some view) => some view.state
  | _ => none

/-- The state that a worker ends in. -/
def outcome : WorkerEvent → Option WorkerStatus
  | published state => some state
  | _ => none

/-- An accepted cancellation. -/
def isCancelled : WorkerEvent → Bool
  | cancel accepted => accepted
  | _ => false

end WorkerEvent

/-- The states that callers have seen. -/
def observations (trace : List WorkerEvent) : List WorkerStatus :=
  trace.filterMap WorkerEvent.observed

/-- A cancellation was accepted. -/
def Cancelled (trace : List WorkerEvent) : Prop := .cancel true ∈ trace

/-- The process was spawned after a cancellation had been accepted. -/
def SpawnedLate (trace : List WorkerEvent) : Prop :=
  ∃ before after, trace = before ++ .admitted true :: after ∧ Cancelled before

/-- What justifies an event of the trace. -/
def Justifies (before : List WorkerEvent) : WorkerEvent → Prop
  | .cancel true => ¬ Cancelled before ∧ ∀ state, .published state ∉ before
  | .published state =>
      state.isTerminal ∧ (∀ other, .published other ∉ before) ∧
        (Cancelled before → state ≠ .exited ∧ state ≠ .signaled)
  | .asked state => ∀ other, .published other ∈ before → state = other
  | .viewed none => ∀ state, .published state ∉ before
  | .viewed (some view) =>
      .published view.state ∈ before ∧
        (view.state = .timedOut ∨ view.state = .cancelled ∨ view.state = .outputLimitExceeded ∨
          view.state = .waitFailed → view.result.exitCode = -1)
  | .admitted _ => ∀ spawned, .admitted spawned ∉ before
  | .ticked => SpawnedLate before → .terminated ∈ before
  | _ => True

/-! ## The invariant -/

/-- The process has not been asked for. -/
def WorkerPhase.isEarly : WorkerPhase → Bool
  | .setup | .deciding _ | .admitting => true
  | _ => false

/-- The thread is on its way to the first look at the cancellation. -/
def WorkerPhase.isFresh : WorkerPhase → Bool
  | .announcing | .polling false | .terminating => true
  | _ => false

/-- What was told agrees with the worker's state. -/
structure TraceSound (worker : WorkerState) : Prop where
  justified : Justified Justifies worker.trace
  forward : (observations worker.trace).Pairwise WorkerStatus.Before
  current : ∀ state ∈ observations worker.trace, state.Before worker.state
  cancelled : worker.cancelRequested = true ↔ Cancelled worker.trace
  ended : worker.completed = true →
    ∀ state, .published state ∈ worker.trace ↔ worker.state = state
  going : worker.completed = false → ∀ state, .published state ∉ worker.trace

/-- What the thread stands at agrees with the worker's state and with what was told. -/
structure PhaseSound (worker : WorkerState) : Prop where
  completed : worker.completed = true ↔ worker.phase = .ended
  state : worker.completed = false →
    if worker.cancelRequested then worker.state = .cancelling
    else worker.state = .starting ∨ worker.state = .running
  early : worker.phase.isEarly = true → ∀ spawned, .admitted spawned ∉ worker.trace
  late : SpawnedLate worker.trace → .terminated ∈ worker.trace ∨ worker.phase.isFresh = true
  announced : worker.phase.isEarly = true ∨ worker.phase = .announcing →
    worker.state ≠ .running
  ending : ∀ spawned state, worker.phase = .publishing spawned state →
    state.isTerminal ∧ (spawned = false → state ≠ .exited ∧ state ≠ .signaled)

/-- What holds of a worker in every run. -/
structure WorkerSound (worker : WorkerState) : Prop extends TraceSound worker, PhaseSound worker

section Steps

variable {before after worker : WorkerState} {event : WorkerEvent}

theorem observations_snoc (trace : List WorkerEvent) (event : WorkerEvent) :
    observations (trace ++ [event]) = observations trace ++ event.observed.toList := by
  unfold observations
  rw [List.filterMap_append]
  cases hobserved : event.observed <;> simp [hobserved]

theorem published_snoc {trace : List WorkerEvent} (houtcome : event.outcome = none)
    (state : WorkerStatus) : .published state ∈ trace ++ [event] ↔ .published state ∈ trace := by
  rw [List.mem_append, List.mem_singleton]
  refine or_iff_left fun hsame => ?_
  rw [← hsame] at houtcome
  cases houtcome

theorem cancelled_snoc {trace : List WorkerEvent} :
    Cancelled (trace ++ [event]) ↔ Cancelled trace ∨ event = .cancel true := by
  unfold Cancelled
  rw [List.mem_append, List.mem_singleton]
  exact or_congr_right eq_comm

theorem spawnedLate_snoc {trace : List WorkerEvent} (hlate : SpawnedLate (trace ++ [event])) :
    SpawnedLate trace ∨ event = .admitted true ∧ Cancelled trace := by
  obtain ⟨earlier, later, hsplit, hcancelled⟩ := hlate
  rcases List.eq_nil_or_concat later with rfl | ⟨shorter, last, rfl⟩
  · obtain ⟨rfl, hlast⟩ := List.append_inj' hsplit rfl
    exact .inr ⟨(List.singleton_inj.mp hlast), hcancelled⟩
  · rw [List.concat_eq_append, ← List.cons_append, ← List.append_assoc] at hsplit
    obtain ⟨rfl, -⟩ := List.append_inj' hsplit rfl
    exact .inl ⟨earlier, shorter, rfl, hcancelled⟩

/-- A step that tells nothing and completes nothing. -/
theorem TraceSound.same (hsound : TraceSound before) (htrace : after.trace = before.trace)
    (hcancel : after.cancelRequested = before.cancelRequested)
    (hcompleted : after.completed = before.completed) (hstate : before.state.Before after.state)
    (hover : before.completed = false ∨ after.state = before.state) : TraceSound after := by
  refine ⟨?_, ?_, ?_, ?_, ?_, ?_⟩
  · rw [htrace]
    exact hsound.justified
  · rw [htrace]
    exact hsound.forward
  · rw [htrace]
    exact fun state hmem => (hsound.current state hmem).trans hstate
  · rw [htrace, hcancel]
    exact hsound.cancelled
  · rw [htrace, hcompleted]
    intro hdone
    rcases hover with hgoing | hsame
    · simp [hdone] at hgoing
    · rw [hsame]
      exact hsound.ended hdone
  · rw [htrace, hcompleted]
    exact hsound.going

/-- An event more, of which callers see the state that there is. -/
theorem TraceSound.snoc (hsound : TraceSound before) (htrace : after.trace = before.trace ++ [event])
    (hjustifies : Justifies before.trace event)
    (hobserved : ∀ state, event.observed = some state → state = after.state)
    (hstate : before.state.Before after.state)
    (hcancelled : after.cancelRequested = true ↔ Cancelled after.trace)
    (hover : after.completed = true →
      ∀ state, .published state ∈ after.trace ↔ after.state = state)
    (hgoing : after.completed = false → ∀ state, .published state ∉ after.trace) :
    TraceSound after := by
  have hcurrent : ∀ state ∈ observations before.trace, state.Before after.state :=
    fun state hmem => (hsound.current state hmem).trans hstate
  refine ⟨?_, ?_, ?_, hcancelled, hover, hgoing⟩
  · rw [htrace]
    exact hsound.justified.snoc hjustifies
  · rw [htrace, observations_snoc]
    cases hseen : event.observed with
    | none => simpa using hsound.forward
    | some state =>
        rw [Option.toList_some, List.pairwise_append]
        refine ⟨hsound.forward, List.pairwise_singleton _ _, fun earlier hearlier later hlater => ?_⟩
        obtain rfl := List.mem_singleton.mp hlater
        rw [hobserved later hseen]
        exact hcurrent earlier hearlier
  · rw [htrace, observations_snoc]
    intro state hmem
    rcases List.mem_append.mp hmem with hmem | hmem
    · exact hcurrent state hmem
    · cases hseen : event.observed with
      | none => simp [hseen] at hmem
      | some seen =>
          rw [hseen, Option.toList_some, List.mem_singleton] at hmem
          rw [hmem, hobserved seen hseen]
          exact .inl rfl

/-- An event of the worker's thread, which no caller sees and which completes nothing. -/
theorem TraceSound.told (hsound : TraceSound before) (htrace : after.trace = before.trace ++ [event])
    (hjustifies : Justifies before.trace event) (hobserved : event.observed = none)
    (hcancel : event ≠ .cancel true) (houtcome : event.outcome = none)
    (hsame : after.cancelRequested = before.cancelRequested)
    (hcompleted : after.completed = before.completed) (hstate : after.state = before.state) :
    TraceSound after := by
  refine hsound.snoc htrace hjustifies (by simp [hobserved]) (.inl hstate.symm) ?_ ?_ ?_
  · rw [hsame, htrace, cancelled_snoc, hsound.cancelled]
    exact (or_iff_left hcancel).symm
  · rw [hcompleted, hstate, htrace]
    exact fun hdone state => (published_snoc houtcome state).trans (hsound.ended hdone state)
  · rw [hcompleted, htrace]
    exact fun hgoing state => mt (published_snoc houtcome state).mp (hsound.going hgoing state)

/-- The thread goes on, and the worker's state stays. -/
theorem PhaseSound.goes (hsound : PhaseSound before) (hbefore : before.phase ≠ .ended)
    (hafter : after.phase ≠ .ended) (hcompleted : after.completed = before.completed)
    (hcancel : after.cancelRequested = before.cancelRequested) (hstate : after.state = before.state)
    (hearly : after.phase.isEarly = true →
      before.phase.isEarly = true ∧ after.trace = before.trace)
    (hlate : SpawnedLate after.trace → .terminated ∈ after.trace ∨ after.phase.isFresh = true)
    (hannounced : after.phase = .announcing → before.phase.isEarly = true)
    (hending : ∀ spawned state, after.phase = .publishing spawned state →
      state.isTerminal ∧ (spawned = false → state ≠ .exited ∧ state ≠ .signaled)) :
    PhaseSound after := by
  have hgoing : ¬ before.completed = true := mt hsound.completed.mp hbefore
  refine ⟨?_, ?_, fun hphase => ?_, hlate, ?_, hending⟩
  · rw [hcompleted]
    exact ⟨fun hdone => absurd hdone hgoing, fun hover => absurd hover hafter⟩
  · rw [hcompleted, hcancel, hstate]
    exact hsound.state
  · rw [(hearly hphase).2]
    exact hsound.early (hearly hphase).1
  · rw [hstate]
    rintro (hphase | hphase)
    · exact hsound.announced (.inl (hearly hphase).1)
    · exact hsound.announced (.inl (hannounced hphase))

theorem PhaseSound.not_spawnedLate (hsound : PhaseSound worker)
    (hearly : worker.phase.isEarly = true) : ¬ SpawnedLate worker.trace := by
  rintro ⟨earlier, later, hsplit, -⟩
  exact hsound.early hearly true (by rw [hsplit]; simp)

/-- The thread goes on with nothing told. -/
theorem WorkerSound.goes (hsound : WorkerSound worker) {phase : WorkerPhase}
    (error : Option WorkerError) (hbefore : worker.phase ≠ .ended) (hafter : phase ≠ .ended)
    (hearly : phase.isEarly = true → worker.phase.isEarly = true)
    (hlate : SpawnedLate worker.trace → .terminated ∈ worker.trace ∨ phase.isFresh = true)
    (hannounced : phase = .announcing → worker.phase.isEarly = true)
    (hending : ∀ spawned state, phase = .publishing spawned state →
      state.isTerminal ∧ (spawned = false → state ≠ .exited ∧ state ≠ .signaled)) :
    WorkerSound { worker with phase, error } := by
  refine ⟨hsound.toTraceSound.same rfl rfl rfl (.inl rfl) (.inr rfl), ?_⟩
  exact hsound.toPhaseSound.goes hbefore hafter rfl rfl rfl
    (fun hphase => ⟨hearly hphase, rfl⟩) hlate hannounced hending

/-! ### The worker's thread -/

theorem setup_sound (hsound : WorkerSound worker) (hphase : worker.phase = .setup) (code : Salts) :
    WorkerSound (worker.goes (.deciding code)) := by
  have hearly : worker.phase.isEarly = true := by rw [hphase]; rfl
  refine hsound.goes worker.error (by simp [hphase]) (by simp) (fun _ => hearly) (fun hlate => ?_)
    (by simp) (by simp)
  exact absurd hlate (hsound.not_spawnedLate hearly)

theorem decide_sound (hsound : WorkerSound worker) {code : Salts}
    (hphase : worker.phase = .deciding code) :
    WorkerSound
      (if code ≠ .ok then
        { worker with error := some (.setup code), phase := .publishing false .waitFailed }
      else if worker.cancelRequested then worker.goes (.publishing false .cancelled)
      else worker.goes .admitting) := by
  have hearly : worker.phase.isEarly = true := by rw [hphase]; rfl
  have hover : worker.phase ≠ .ended := by simp [hphase]
  have hnone := hsound.not_spawnedLate hearly
  split
  · refine hsound.goes _ hover (by simp) (fun _ => hearly) (fun hlate => absurd hlate hnone)
      (by simp) ?_
    rintro spawned state ⟨⟩
    exact ⟨rfl, fun _ => by simp⟩
  split
  · refine hsound.goes worker.error hover (by simp) (fun _ => hearly)
      (fun hlate => absurd hlate hnone) (by simp) ?_
    rintro spawned state ⟨⟩
    exact ⟨rfl, fun _ => by simp⟩
  · exact hsound.goes worker.error hover (by simp) (fun _ => hearly)
      (fun hlate => absurd hlate hnone) (by simp) (by simp)

/-- The process is asked for. -/
theorem admitted_sound (hsound : WorkerSound before) (hphase : before.phase = .admitting)
    {spawned : Bool} (htrace : after.trace = before.trace ++ [.admitted spawned])
    (hcompleted : after.completed = before.completed)
    (hcancel : after.cancelRequested = before.cancelRequested) (hstate : after.state = before.state)
    (hspawned : spawned = true → after.phase = .announcing)
    (hfailed : spawned = false → after.phase = .publishing false .spawnFailed ∨
      ∃ code, after.phase = .draining false code) : WorkerSound after := by
  have hearly : before.phase.isEarly = true := by rw [hphase]; rfl
  have hnext : after.phase ≠ .ended ∧ ¬ after.phase.isEarly = true := by
    cases spawned with
    | true => simp [hspawned rfl, WorkerPhase.isEarly]
    | false =>
        rcases hfailed rfl with hphase | ⟨code, hphase⟩
        · simp [hphase, WorkerPhase.isEarly]
        · simp [hphase, WorkerPhase.isEarly]
  refine ⟨hsound.told htrace (hsound.early hearly) rfl (by simp) rfl hcancel hcompleted hstate,
    hsound.toPhaseSound.goes (by simp [hphase]) hnext.1 hcompleted hcancel hstate
      (fun hphase => absurd hphase hnext.2) (fun hlate => ?_) (fun _ => hearly)
      fun other state hpublishing => ?_⟩
  · rw [htrace] at hlate
    rcases spawnedLate_snoc hlate with hbefore | ⟨hadmitted, -⟩
    · exact absurd hbefore (hsound.not_spawnedLate hearly)
    · rw [hspawned (WorkerEvent.admitted.inj hadmitted)]
      exact .inr rfl
  · cases spawned with
    | true => simp [hspawned rfl] at hpublishing
    | false =>
        rcases hfailed rfl with hphase | ⟨code, hphase⟩
        · rw [hphase] at hpublishing
          cases hpublishing
          exact ⟨rfl, fun _ => by simp⟩
        · simp [hphase] at hpublishing

theorem startDriver_sound (hsound : WorkerSound worker) (hphase : worker.phase = .admitting)
    (reply : AdmissionReply) : WorkerSound (startDriver reply worker) := by
  have hrefused : ∀ code, WorkerSound (refuseAdmission code worker) := fun code =>
    admitted_sound hsound hphase rfl rfl rfl rfl (by simp) fun _ => .inl rfl
  cases reply with
  | unsupported => exact hrefused .enotsup
  | invalid => exact hrefused .einval
  | outOfMemory => exact hrefused .enomem
  | native start live =>
      refine admitted_sound hsound hphase rfl rfl rfl rfl (fun hspawned => ?_) fun hfailed => ?_
      · exact if_pos hspawned
      · exact .inr ⟨start, if_neg (by simp [hfailed])⟩

theorem announce_sound (hsound : WorkerSound worker) (hphase : worker.phase = .announcing) :
    WorkerSound { worker with
      state := if worker.cancelRequested then worker.state else .running
      phase := .polling false } := by
  have hgoing : worker.completed = false :=
    (Bool.not_eq_true _).mp (mt hsound.completed.mp (by simp [hphase]))
  have hstate := hsound.state hgoing
  have hrunning := hsound.announced (.inr hphase)
  refine ⟨hsound.toTraceSound.same rfl rfl rfl ?_ (.inl hgoing), ⟨?_, fun _ => ?_, by
    simp [WorkerPhase.isEarly], fun _ => .inr rfl, by simp [WorkerPhase.isEarly], by simp⟩⟩
  · cases hcancel : worker.cancelRequested with
    | true => exact .inl rfl
    | false =>
        rw [hcancel, if_neg (by simp)] at hstate
        rw [hstate.resolve_right hrunning]
        exact .inr Nat.zero_lt_one
  · simp [hgoing]
  · cases hcancel : worker.cancelRequested with
    | true =>
        rw [hcancel, if_pos rfl] at hstate
        simpa using hstate
    | false => simp

theorem poll_sound (hsound : WorkerSound worker) {terminated : Bool}
    (hphase : worker.phase = .polling terminated) :
    WorkerSound
      (if !terminated && worker.cancelRequested then worker.goes .terminating
      else worker.goes (.ticking terminated)) := by
  have hover : worker.phase ≠ .ended := by simp [hphase]
  split
  · exact hsound.goes worker.error hover (by simp) (by simp [WorkerPhase.isEarly])
      (fun _ => .inr rfl) (by simp) (by simp)
  · rename_i hquiet
    refine hsound.goes worker.error hover (by simp) (by simp [WorkerPhase.isEarly])
      (fun hlate => ?_) (by simp) (by simp)
    refine .inl ((hsound.late hlate).resolve_right fun hfresh => hquiet ?_)
    cases terminated with
    | true => simp [hphase, WorkerPhase.isFresh] at hfresh
    | false =>
        obtain ⟨earlier, later, hsplit, hcancelled⟩ := hlate
        rw [Bool.not_false, Bool.true_and, hsound.cancelled, hsplit]
        exact List.mem_append_left _ hcancelled

theorem terminate_sound (hsound : WorkerSound worker) (hphase : worker.phase = .terminating)
    (driver : DriverState) :
    WorkerSound { worker.saw .terminated with driver := some driver, phase := .ticking true } := by
  refine ⟨hsound.told rfl trivial rfl (by simp) rfl rfl rfl rfl, hsound.toPhaseSound.goes
    (by simp [hphase]) (by simp) rfl rfl rfl (by simp [WorkerPhase.isEarly]) (fun _ => .inl ?_)
    (by simp) (by simp)⟩
  exact List.mem_append_right _ (List.mem_singleton_self _)

/-- A tick, after which the thread polls again or drains. -/
theorem ticked_sound (hsound : WorkerSound worker) {terminated : Bool}
    (hphase : worker.phase = .ticking terminated) (driver : DriverState) {phase : WorkerPhase}
    (hnext : phase = .polling terminated ∨ ∃ code, phase = .draining true code) :
    WorkerSound { worker.saw .ticked with driver := some driver, phase } := by
  have hlate : SpawnedLate worker.trace → .terminated ∈ worker.trace := fun hlate =>
    (hsound.late hlate).resolve_right (by simp [hphase, WorkerPhase.isFresh])
  have hplain : phase ≠ .ended ∧ ¬ phase.isEarly = true ∧ phase ≠ .announcing ∧
      ∀ spawned state, phase ≠ .publishing spawned state := by
    rcases hnext with rfl | ⟨code, rfl⟩
    · simp [WorkerPhase.isEarly]
    · simp [WorkerPhase.isEarly]
  refine ⟨hsound.told rfl hlate rfl (by simp) rfl rfl rfl rfl, hsound.toPhaseSound.goes
    (by simp [hphase]) hplain.1 rfl rfl rfl (fun hearly => absurd hearly hplain.2.1)
    (fun hafter => .inl ?_) (fun hannounced => absurd hannounced hplain.2.2.1)
    fun spawned state hpublishing => absurd hpublishing (hplain.2.2.2 spawned state)⟩
  rcases spawnedLate_snoc hafter with hbefore | ⟨hadmitted, -⟩
  · exact List.mem_append_left _ (hlate hbefore)
  · cases hadmitted

theorem drain_sound (hsound : WorkerSound worker) {spawned : Bool} {code : Salts}
    (hphase : worker.phase = .draining spawned code) (driver : DriverState) :
    WorkerSound { worker with
      driver := some driver
      phase := if driver.live then worker.phase
        else .publishing spawned (endState spawned code driver) } := by
  have hlate : SpawnedLate worker.trace → .terminated ∈ worker.trace := fun hlate =>
    (hsound.late hlate).resolve_right (by simp [hphase, WorkerPhase.isFresh])
  have hover : worker.phase ≠ .ended := by simp [hphase]
  cases hlive : driver.live with
  | true =>
      refine ⟨hsound.toTraceSound.same rfl rfl rfl (.inl rfl) (.inr rfl),
        hsound.toPhaseSound.goes hover hover rfl rfl rfl (fun hearly => ⟨hearly, rfl⟩)
          (fun hafter => .inl (hlate hafter)) (fun hannounced => ?_) hsound.ending⟩
      simp [hphase] at hannounced
  | false =>
      refine ⟨hsound.toTraceSound.same rfl rfl rfl (.inl rfl) (.inr rfl),
        hsound.toPhaseSound.goes hover (by simp) rfl rfl rfl (by simp [WorkerPhase.isEarly])
          (fun hafter => .inl (hlate hafter)) (by simp) ?_⟩
      rintro other state ⟨⟩
      refine ⟨endState_isTerminal _ _ _, ?_⟩
      rintro rfl
      simp [endState]

theorem publish_sound (hsound : WorkerSound worker) {spawned : Bool} {state : WorkerStatus}
    (hphase : worker.phase = .publishing spawned state) :
    WorkerSound (publish spawned state worker) := by
  have hgoing : worker.completed = false :=
    (Bool.not_eq_true _).mp (mt hsound.completed.mp (by simp [hphase]))
  have hlate : SpawnedLate worker.trace → .terminated ∈ worker.trace := fun hlate =>
    (hsound.late hlate).resolve_right (by simp [hphase, WorkerPhase.isFresh])
  obtain ⟨hterminal, hunspawned⟩ := hsound.ending spawned state hphase
  unfold publish
  dsimp only
  generalize hlast : (if spawned && worker.cancelRequested && decide (state ≠ .timedOut) &&
    decide (state ≠ .waitFailed) && decide (state ≠ .outputLimitExceeded) then
    WorkerStatus.cancelled else state) = last
  have hlastTerminal : last.isTerminal := by
    rw [← hlast]
    split
    · rfl
    · exact hterminal
  have hlastCancelled : Cancelled worker.trace → last ≠ .exited ∧ last ≠ .signaled := by
    intro hcancelled
    have hcancel := hsound.cancelled.mpr hcancelled
    rw [← hlast, hcancel]
    cases spawned with
    | false => simpa using hunspawned rfl
    | true => cases state <;> simp
  have hbefore : worker.state.Before last := by
    have hstate := hsound.state hgoing
    have hrank : worker.state.rank < 3 := by
      cases hcancel : worker.cancelRequested with
      | true =>
          rw [hcancel, if_pos rfl] at hstate
          rw [hstate]
          decide
      | false =>
          rw [hcancel, if_neg (by simp)] at hstate
          rcases hstate with hstate | hstate
          · rw [hstate]
            decide
          · rw [hstate]
            decide
    exact .inr (Nat.lt_of_lt_of_eq hrank hlastTerminal.symm)
  refine ⟨hsound.toTraceSound.snoc rfl ⟨hlastTerminal, hsound.going hgoing, hlastCancelled⟩
    (by simp [WorkerEvent.observed]) hbefore ?_ (fun _ other => ?_) (by simp), ⟨by simp, by simp, by
      simp [WorkerPhase.isEarly], fun hafter => .inl ?_, by simp [WorkerPhase.isEarly], by simp⟩⟩
  · change worker.cancelRequested = true ↔ Cancelled (worker.trace ++ [.published last])
    rw [cancelled_snoc, hsound.cancelled]
    exact (or_iff_left (by simp)).symm
  · change .published other ∈ worker.trace ++ [.published last] ↔ last = other
    rw [List.mem_append, or_iff_right (hsound.going hgoing other), List.mem_singleton,
      WorkerEvent.published.injEq]
    exact eq_comm
  · rcases spawnedLate_snoc hafter with hearlier | ⟨hadmitted, -⟩
    · exact List.mem_append_left _ (hlate hearlier)
    · cases hadmitted

variable {callback : List DriverEvent → Bytes → Salts} {peerClosed : Int → Bool}

/-- What a step of the worker's thread keeps. -/
theorem runWorker_sound (hsound : WorkerSound worker) (step : WorkerStep) :
    WorkerSound (runWorker callback peerClosed step worker) := by
  unfold runWorker
  split
  · rename_i hphase
    exact setup_sound hsound hphase _
  · rename_i hphase
    exact decide_sound hsound hphase
  · rename_i hphase
    exact startDriver_sound hsound hphase _
  · rename_i hphase
    exact announce_sound hsound hphase
  · rename_i hphase
    exact poll_sound hsound hphase
  · rename_i hphase _
    exact terminate_sound hsound hphase _
  · rename_i first second terminated driver hphase _
    unfold tickDriver
    generalize praktorProcessDriverTick callback peerClosed first second driver = outcome
    obtain ⟨⟨code, done⟩, ticked⟩ := outcome
    apply ticked_sound hsound hphase
    split
    · exact .inr ⟨code, rfl⟩
    split
    · exact .inr ⟨_, rfl⟩
    · exact .inl rfl
  · rename_i hphase _
    exact drain_sound hsound hphase _
  · rename_i hphase
    exact publish_sound hsound hphase
  · exact hsound

/-! ### The callers -/

/-- A call of another thread leaves the worker's thread where it is. -/
theorem PhaseSound.called (hsound : PhaseSound before) {accepted : WorkerEvent}
    (htrace : after.trace = before.trace ++ [accepted])
    (hadmitted : ∀ spawned, accepted ≠ .admitted spawned)
    (hcompleted : after.completed = before.completed) (hphase : after.phase = before.phase)
    (hstate : after.completed = false →
      if after.cancelRequested then after.state = .cancelling
      else after.state = .starting ∨ after.state = .running)
    (hrunning : before.state ≠ .running → after.state ≠ .running) : PhaseSound after := by
  refine ⟨?_, hstate, ?_, ?_, ?_, ?_⟩
  · rw [hcompleted, hphase]
    exact hsound.completed
  · rw [hphase, htrace]
    intro hearly spawned hmem
    rcases List.mem_append.mp hmem with hmem | hmem
    · exact hsound.early hearly spawned hmem
    · exact hadmitted spawned (List.mem_singleton.mp hmem).symm
  · rw [hphase, htrace]
    intro hlate
    rcases spawnedLate_snoc hlate with hbefore | ⟨hsame, -⟩
    · exact (hsound.late hbefore).imp_left (List.mem_append_left _)
    · exact absurd hsame (hadmitted true)
  · rw [hphase]
    exact fun hearly => hrunning (hsound.announced hearly)
  · rw [hphase]
    exact hsound.ending

theorem cancel_sound (hsound : WorkerSound worker) :
    WorkerSound (praktorProcessWorkerCancel worker) := by
  unfold praktorProcessWorkerCancel
  dsimp only
  cases hcompleted : worker.completed with
  | true =>
      rw [Bool.not_true, Bool.false_and, if_neg (by simp)]
      refine ⟨hsound.told rfl trivial rfl (by simp) rfl rfl rfl rfl,
        hsound.toPhaseSound.called rfl (by simp) rfl rfl ?_ id⟩
      intro hgoing
      exact absurd (hcompleted.symm.trans hgoing) (by simp)
  | false =>
      cases hcancel : worker.cancelRequested with
      | true =>
          rw [Bool.not_true, Bool.and_false, if_neg (by simp)]
          exact ⟨hsound.told rfl trivial rfl (by simp) rfl rfl rfl rfl,
            hsound.toPhaseSound.called rfl (by simp) rfl rfl hsound.state id⟩
      | false =>
          have hnone : ¬ Cancelled worker.trace := by
            rw [← hsound.cancelled, hcancel]
            simp
          have hstate := hsound.state hcompleted
          rw [hcancel, if_neg (by simp)] at hstate
          rw [Bool.not_false, Bool.and_true, if_pos rfl]
          refine ⟨hsound.toTraceSound.snoc rfl ⟨hnone, hsound.going hcompleted⟩
            (by simp [WorkerEvent.observed]) ?_ ?_ ?_ ?_,
            hsound.toPhaseSound.called rfl (by simp) rfl rfl (fun _ => by simp) (by simp)⟩
          · rcases hstate with hstate | hstate
            · rw [hstate]
              exact .inr Nat.zero_lt_two
            · rw [hstate]
              exact .inr Nat.one_lt_two
          · exact ⟨fun _ => List.mem_append_right _ (List.mem_singleton_self _), fun _ => rfl⟩
          · intro hdone
            exact absurd (hcompleted.symm.trans hdone) (by simp)
          · exact fun _ state => mt (published_snoc rfl state).mp (hsound.going hcompleted state)

/-- A call that looks at the worker. -/
theorem look_sound (hsound : WorkerSound worker) (hjustifies : Justifies worker.trace event)
    (hobserved : ∀ state, event.observed = some state → state = worker.state)
    (hcancel : event ≠ .cancel true) (houtcome : event.outcome = none)
    (hadmitted : ∀ spawned, event ≠ .admitted spawned) : WorkerSound (worker.saw event) := by
  refine ⟨hsound.toTraceSound.snoc rfl hjustifies hobserved (.inl rfl) ?_ ?_ ?_,
    hsound.toPhaseSound.called rfl hadmitted rfl rfl hsound.state id⟩
  · change worker.cancelRequested = true ↔ Cancelled (worker.trace ++ [event])
    rw [cancelled_snoc, hsound.cancelled]
    exact (or_iff_left hcancel).symm
  · exact fun hdone state => (published_snoc houtcome state).trans (hsound.ended hdone state)
  · exact fun hgoing state => mt (published_snoc houtcome state).mp (hsound.going hgoing state)

theorem state_sound (hsound : WorkerSound worker) :
    WorkerSound (praktorProcessWorkerState worker) := by
  refine look_sound hsound (fun other hpublished => ?_) (fun state hseen => ?_) (by simp) rfl
    (by simp)
  · cases hcompleted : worker.completed with
    | true => exact (hsound.ended hcompleted other).mp hpublished
    | false => exact absurd hpublished (hsound.going hcompleted other)
  · exact (Option.some.inj hseen).symm

theorem result_sound (hsound : WorkerSound worker) :
    WorkerSound (praktorProcessWorkerResult worker) := by
  unfold praktorProcessWorkerResult
  cases hcompleted : worker.completed with
  | false =>
      rw [if_neg (by simp)]
      exact look_sound hsound (hsound.going hcompleted) (by simp [WorkerEvent.observed]) (by simp) rfl
        (by simp)
  | true =>
      rw [if_pos rfl]
      refine look_sound hsound ⟨(hsound.ended hcompleted _).mpr rfl, fun hdiagnostic => ?_⟩ (fun state hseen => ?_)
        (by simp) rfl (by simp)
      · have htext : (diagnostic worker.state).isSome = true :=
          (diagnostic_isSome worker.state).mpr hdiagnostic
        unfold workerView
        dsimp only
        rw [if_pos htext]
      · exact (Option.some.inj hseen).symm

/-! ## Runs -/

theorem praktorProcessWorkerStart_sound (config : WorkerConfig) :
    WorkerSound (praktorProcessWorkerStart config) := by
  have htrace : (praktorProcessWorkerStart config).trace = [] := rfl
  have hphase : (praktorProcessWorkerStart config).phase = .setup := rfl
  have hcompleted : (praktorProcessWorkerStart config).completed = false := rfl
  have hcancel : (praktorProcessWorkerStart config).cancelRequested = false := rfl
  refine ⟨⟨?_, ?_, ?_, ?_, ?_, ?_⟩, ⟨?_, fun _ => .inl rfl, ?_, ?_, ?_, ?_⟩⟩
  · exact justified_nil
  · exact .nil
  · rw [htrace]
    simp [observations]
  · rw [htrace, hcancel]
    simp [Cancelled]
  · rw [hcompleted]
    simp
  · rw [htrace]
    simp
  · rw [hcompleted, hphase]
    simp
  · rw [htrace]
    simp
  · rw [htrace]
    rintro ⟨earlier, later, hsplit, -⟩
    simp at hsplit
  · exact fun _ => by simp [praktorProcessWorkerStart]
  · rw [hphase]
    simp

/-- What an action keeps. -/
theorem act_sound (hsound : WorkerSound worker) (action : WorkerAction) :
    WorkerSound (act callback peerClosed worker action) := by
  cases action with
  | work step => exact runWorker_sound hsound step
  | cancel => exact cancel_sound hsound
  | state => exact state_sound hsound
  | result => exact result_sound hsound

/-- What every run keeps. -/
theorem workerRun_sound (config : WorkerConfig) (actions : List WorkerAction) :
    WorkerSound (workerRun callback peerClosed config actions) := by
  induction actions using List.reverseRecOn with
  | nil => exact praktorProcessWorkerStart_sound config
  | append_singleton actions action ih =>
      unfold workerRun at ih ⊢
      rw [List.foldl_append]
      exact act_sound ih action

end Steps

/-! ## The contract -/

/-- What callers may rely on. -/
structure WorkerContract (trace : List WorkerEvent) : Prop where
  forward : (observations trace).Pairwise WorkerStatus.Before
  once : (trace.filter WorkerEvent.isCancelled).length ≤ 1
  timely : ∀ before after, trace = before ++ .cancel true :: after →
    ∀ state, .published state ∉ before
  ended : ∀ before state after, trace = before ++ .published state :: after →
    state.isTerminal ∧ (∀ other, .published other ∉ before ++ after) ∧
      ∀ seen ∈ observations after, seen = state
  cancelled : Cancelled trace → ∀ state, .published state ∈ trace →
    state ≠ .exited ∧ state ≠ .signaled
  unspawned : ∀ before after, trace = before ++ .cancel true :: after →
    (∀ spawned, .admitted spawned ∉ before) →
      (∀ earlier later, trace = earlier ++ .ticked :: later →
        .admitted true ∉ earlier ∨ .terminated ∈ earlier) ∧
      ((∃ state, .published state ∈ trace) → .admitted true ∉ trace ∨ .terminated ∈ trace)
  early : ∀ before after, trace = before ++ .viewed none :: after →
    ∀ state, .published state ∉ before
  viewed : ∀ before view after, trace = before ++ .viewed (some view) :: after →
    .published view.state ∈ before ∧
      (view.state = .timedOut ∨ view.state = .cancelled ∨ view.state = .outputLimitExceeded ∨
        view.state = .waitFailed → view.result.exitCode = -1)

section Contract

variable {trace : List WorkerEvent}

/-- The first cancellation comes before the process is spawned. -/
theorem spawnedLate_of_unspawned {before after : List WorkerEvent}
    (hsplit : trace = before ++ .cancel true :: after)
    (hnone : ∀ spawned, .admitted spawned ∉ before) (hspawned : .admitted true ∈ trace) :
    SpawnedLate trace := by
  have hafter : WorkerEvent.admitted true ∈ after := by
    rw [hsplit] at hspawned
    rcases List.mem_append.mp hspawned with hmem | hmem
    · exact absurd hmem (hnone true)
    · exact (List.mem_cons.mp hmem).resolve_left (by simp)
  obtain ⟨between, later, rfl⟩ := List.append_of_mem hafter
  refine ⟨before ++ .cancel true :: between, later, by simp [hsplit], ?_⟩
  exact List.mem_append_right _ List.mem_cons_self

theorem WorkerSound.contract {worker : WorkerState} (hsound : WorkerSound worker) :
    WorkerContract worker.trace := by
  have hjustified := hsound.justified
  refine ⟨hsound.forward, ?_, fun before after hsplit => (hjustified before _ after hsplit).2, ?_, ?_,
    ?_, fun before after hsplit => hjustified before _ after hsplit,
    fun before view after hsplit => hjustified before _ after hsplit⟩
  · refine hjustified.at_most_once fun before event hevent hkind earlier hearlier => ?_
    cases event with
    | cancel accepted =>
        obtain rfl : accepted = true := hkind
        refine (Bool.not_eq_true _).mp fun hcancelled => hevent.1 ?_
        cases earlier with
        | cancel answer =>
            obtain rfl : answer = true := hcancelled
            exact hearlier
        | _ => cases hcancelled
    | _ => cases hkind
  · intro before state after hsplit
    obtain ⟨hterminal, hfirst, -⟩ := hjustified before _ after hsplit
    have hafter : ∀ other, WorkerEvent.published other ∉ after := by
      intro other hmem
      obtain ⟨earlier, later, rfl⟩ := List.append_of_mem hmem
      have hother := hjustified (before ++ .published state :: earlier) (.published other) later
        (by simp [hsplit])
      exact hother.2.1 state (by simp)
    refine ⟨hterminal, fun other hmem => ?_, fun seen hseen => ?_⟩
    · exact (List.mem_append.mp hmem).elim (hfirst other) (hafter other)
    · obtain ⟨event, hevent, hobserved⟩ := List.mem_filterMap.mp hseen
      obtain ⟨earlier, later, rfl⟩ := List.append_of_mem hevent
      have hjust := hjustified (before ++ .published state :: earlier) event later (by simp [hsplit])
      cases event with
      | asked answer =>
          obtain rfl := Option.some.inj hobserved
          exact hjust state (by simp)
      | viewed answer =>
          cases answer with
          | none => cases hobserved
          | some view =>
              obtain rfl := Option.some.inj hobserved
              rcases List.mem_append.mp hjust.1 with hmem | hmem
              · exact absurd hmem (hfirst _)
              · rcases List.mem_cons.mp hmem with hmem | hmem
                · exact WorkerEvent.published.inj hmem
                · exact absurd (List.mem_append_left _ hmem) (hafter _)
      | _ => cases hobserved
  · intro hcancelled state hmem
    obtain ⟨before, after, hsplit⟩ := List.append_of_mem hmem
    obtain ⟨-, -, hquiet⟩ := hjustified before _ after hsplit
    unfold Cancelled at hcancelled
    rw [hsplit] at hcancelled
    rcases List.mem_append.mp hcancelled with hbefore | hafter
    · exact hquiet hbefore
    · -- none is accepted after the worker has completed
      have hafter := (List.mem_cons.mp hafter).resolve_left (by simp)
      obtain ⟨earlier, later, rfl⟩ := List.append_of_mem hafter
      have hcancel := hjustified (before ++ .published state :: earlier) (.cancel true) later
        (by simp [hsplit])
      exact absurd (by simp) (hcancel.2 state)
  · intro before after hsplit hnone
    refine ⟨fun earlier later htick => ?_, fun ⟨state, hpublished⟩ => ?_⟩
    · by_cases hspawned : WorkerEvent.admitted true ∈ earlier
      · right
        apply hjustified earlier .ticked later htick
        rcases List.append_eq_append_iff.mp (hsplit.symm.trans htick) with
          ⟨between, rfl, hcancel⟩ | ⟨between, rfl, -⟩
        · cases between with
          | nil =>
              rw [List.append_nil] at hspawned
              exact absurd hspawned (hnone true)
          | cons first between =>
              obtain ⟨rfl, -⟩ := List.cons.inj hcancel
              exact spawnedLate_of_unspawned rfl hnone hspawned
        · exact absurd (List.mem_append_left _ hspawned) (hnone true)
      · exact .inl hspawned
    · by_cases hspawned : WorkerEvent.admitted true ∈ worker.trace
      · right
        refine (hsound.late (spawnedLate_of_unspawned hsplit hnone hspawned)).resolve_right ?_
        have hcompleted : worker.completed = true :=
          (Bool.not_eq_false _).mp fun hgoing => hsound.going hgoing state hpublished
        simp [hsound.completed.mp hcompleted, WorkerPhase.isFresh]
      · exact .inl hspawned

/-- Whatever the order of the worker's steps and of the calls, and whatever the process does,
callers may rely on the contract. -/
theorem praktorProcessWorker_contract (callback : List DriverEvent → Bytes → Salts)
    (peerClosed : Int → Bool) (config : WorkerConfig) (actions : List WorkerAction) :
    WorkerContract (workerRun callback peerClosed config actions).trace :=
  (workerRun_sound config actions).contract

end Contract

end Praktor.Process
