/-
# What the control of a managed process may do

Which call is justified after which calls, and that every execution makes only such calls.
The polling of the process is quiet: it adds queries, readings and pauses to the trace and
leaves the rest of the result as it is, so what is to be shown of a call is shown where it
is made.
-/

import Praktor.Process.ProcessControl

namespace Praktor.Process

open Praktor.Data Praktor.Math Praktor.Math.Interaction

/-! ## Traces of calls -/

namespace ControlEvent

/-- A call that starts, stops and ends nothing. -/
def quiet : ControlEvent → Bool
  | clock _ | query _ _ _ | sleep _ => true
  | start _ _ | requestStop _ _ | terminate _ _ => false

/-- A start, successful or not. -/
def isStart : ControlEvent → Bool
  | start _ _ => true
  | _ => false

/-- A successful start or request to stop. -/
def changes : ControlEvent → Bool
  | start reply _ | requestStop _ reply => reply.ok
  | _ => false

/-- A call of a status operation. -/
def observes : ControlEvent → Bool
  | clock _ | query _ _ _ => true
  | _ => false

/-- What a query answered. -/
def answer : ControlEvent → Option (ProcessBackendResult × ProcessSnapshot)
  | query _ reply snapshot => some (reply, snapshot)
  | _ => none

theorem isStart_of_quiet {event : ControlEvent} (hquiet : event.quiet = true) :
    event.isStart = false := by
  cases event <;> simp [quiet, isStart] at hquiet ⊢

end ControlEvent

/-- The latest query succeeded with this snapshot. -/
def Observed (trace : List ControlEvent) (snapshot : ProcessSnapshot) : Prop :=
  ∃ reply, latest ControlEvent.answer trace = some (reply, snapshot) ∧ reply.ok = true

/-- The latest query succeeded and reported whether the process runs. -/
def Reports (trace : List ControlEvent) (running : Bool) : Prop :=
  ∃ snapshot, Observed trace snapshot ∧ snapshot.running = running

section Request

variable (request : ProcessControlRequest)

/-- A forced termination is in order: it was asked for, the process was asked to stop, the
time for it is over and a new query still found it running. -/
def Forced (before : List ControlEvent) (target : ProcessSnapshot) : Prop :=
  request.forceTerminate = true ∧
    ∃ earlier asked accepted began polled reading name reply,
      before = earlier ++ [.requestStop asked accepted, .clock began] ++ polled ++
        [.clock reading, .query name reply target] ∧
      accepted.ok = true ∧ (∀ event ∈ polled, event.quiet = true) ∧
      nanoseconds request.stopTimeoutMs ≤ reading - began ∧
      reply.ok = true ∧ target.running = true

/-- A call that is justified after the calls before it. -/
def Authorised (before : List ControlEvent) : ControlEvent → Prop
  | .clock _ | .query _ _ _ | .sleep _ => True
  | .start _ _ =>
      Reports before false ∧ (∀ event ∈ before, event.isStart = false) ∧
        ∃ earlier began, before = earlier ++ [.clock began]
  | .requestStop target _ =>
      Observed before target ∧ target.running = true ∧ ∀ event ∈ before, event.isStart = false
  | .terminate target _ =>
      (∀ reply started, .start reply started ∈ before → reply.ok = true ∧ target = started) ∧
        ((∀ event ∈ before, event.isStart = false) → Forced request before target)

/-- Every call so far was justified, and the result tells whether one of them changed
anything. -/
structure Steady (control : Control) : Prop where
  authorised : Justified (Authorised request) control.trace
  changed_iff : control.result.changed = true ↔ ∃ event ∈ control.trace, event.changes = true

end Request

/-- Only quiet calls were made. -/
structure Quiet (before after : Control) : Prop where
  trace : ∃ tail, after.trace = before.trace ++ tail ∧ ∀ event ∈ tail, event.quiet = true
  changed : after.result.changed = before.result.changed

namespace Quiet

variable {first second third : Control}

theorem refl (control : Control) : Quiet control control :=
  ⟨⟨[], by simp, by simp⟩, rfl⟩

theorem trans (hfirst : Quiet first second) (hsecond : Quiet second third) : Quiet first third := by
  obtain ⟨⟨tail, htrace, hquiet⟩, hchanged⟩ := hfirst
  obtain ⟨⟨rest, hrest, hquietRest⟩, hchangedRest⟩ := hsecond
  refine ⟨⟨tail ++ rest, ?_, ?_⟩, hchangedRest.trans hchanged⟩
  · rw [hrest, htrace, List.append_assoc]
  · intro event hevent
    exact (List.mem_append.mp hevent).elim (hquiet event) (hquietRest event)

theorem saw (control : Control) (event : ControlEvent) (hquiet : event.quiet = true) :
    Quiet control (control.saw event) :=
  ⟨⟨[event], rfl, by simpa using hquiet⟩, rfl⟩

/-- Another result with the same mark of a change. -/
theorem result (control : Control) {result : ProcessControlResult}
    (hchanged : result.changed = control.result.changed) :
    Quiet control { control with result } :=
  ⟨⟨[], by simp, by simp⟩, hchanged⟩

theorem changes_iff (hquiet : Quiet first second) :
    (∃ event ∈ second.trace, event.changes = true) ↔ ∃ event ∈ first.trace, event.changes = true := by
  obtain ⟨⟨tail, htrace, htail⟩, -⟩ := hquiet
  rw [htrace]
  constructor
  · rintro ⟨event, hevent, hchanges⟩
    rcases List.mem_append.mp hevent with hevent | hevent
    · exact ⟨event, hevent, hchanges⟩
    · have hsilent := htail event hevent
      cases event <;> simp [ControlEvent.quiet, ControlEvent.changes] at hsilent hchanges
  · rintro ⟨event, hevent, hchanges⟩
    exact ⟨event, List.mem_append_left _ hevent, hchanges⟩

/-- Quiet calls start nothing. -/
theorem mem_start (hquiet : Quiet first second) {event : ControlEvent}
    (hevent : event ∈ second.trace) (hstart : event.isStart = true) : event ∈ first.trace := by
  obtain ⟨⟨tail, htrace, htail⟩, -⟩ := hquiet
  rw [htrace] at hevent
  rcases List.mem_append.mp hevent with hevent | hevent
  · exact hevent
  · exact absurd hstart (by simp [ControlEvent.isStart_of_quiet (htail event hevent)])

theorem no_start (hquiet : Quiet first second)
    (hnone : ∀ event ∈ first.trace, event.isStart = false) :
    ∀ event ∈ second.trace, event.isStart = false := by
  intro event hevent
  by_contra hstart
  have hstart : event.isStart = true := by simpa using hstart
  exact absurd (hnone event (hquiet.mem_start hevent hstart)) (by simp [hstart])

variable {request : ProcessControlRequest}

/-- Quiet calls are always justified. -/
theorem steady (hquiet : Quiet first second) (hsteady : Steady request first) :
    Steady request second := by
  refine ⟨?_, ?_⟩
  · obtain ⟨⟨tail, htrace, htail⟩, -⟩ := hquiet
    rw [htrace]
    apply hsteady.authorised.append
    intro event hevent before
    have hsilent := htail event hevent
    cases event <;> simp [ControlEvent.quiet, Authorised] at hsilent ⊢
  · rw [hquiet.changed, hquiet.changes_iff]
    exact hsteady.changed_iff

end Quiet

/-! ## The steps -/

section Steps

variable (request : ProcessControlRequest) (host : ProcessControlHost)

/-- The query just made succeeded, or failed with an error of the backend. -/
structure Queried (before : Control) (ok : Bool) (after : Control) : Prop where
  quiet : Quiet before after
  asked : ∃ reply snapshot,
    after.trace = before.trace ++ [.query request.imageName reply snapshot]
  last : ok = true → ∃ reply, reply.ok = true ∧
    after.trace = before.trace ++ [.query request.imageName reply after.result.snapshot]
  result : ok = true →
    after.result = { before.result with snapshot := after.result.snapshot }
  failed : ok = false → after.result.error ≠ .timeout

variable {request host}

/-- A trace that ends with a successful query. -/
theorem observed_snoc (trace : List ControlEvent) (name : Option CString)
    {reply : ProcessBackendResult} (snapshot : ProcessSnapshot) (hok : reply.ok = true) :
    Observed (trace ++ [.query name reply snapshot]) snapshot :=
  ⟨reply, latest_snoc _, hok⟩

theorem Queried.observed {before after : Control} (hquery : Queried request before true after) :
    Observed after.trace after.result.snapshot := by
  obtain ⟨reply, hok, htrace⟩ := hquery.last rfl
  rw [htrace]
  exact observed_snoc _ _ _ hok

/-- A reading, a pause and the like hide no query. -/
theorem Observed.snoc {trace : List ControlEvent} {snapshot : ProcessSnapshot}
    (hobserved : Observed trace snapshot) (event : ControlEvent) (hsilent : event.answer = none) :
    Observed (trace ++ [event]) snapshot := by
  obtain ⟨reply, hlatest, hok⟩ := hobserved
  refine ⟨reply, ?_, hok⟩
  rw [latest_snoc, hsilent, Option.none_or, hlatest]

theorem backend_ensures {post : Bool → Control → Prop} {pause : Control → Prop}
    (reply : ProcessBackendResult) (phase : String) (control : Control)
    (hok : reply.ok = true → post true control)
    (hfailed : reply.ok = false → ∀ result : ProcessControlResult, result.error ≠ .timeout →
      result.changed = control.result.changed → result.snapshot = control.result.snapshot →
      post false { control with result }) :
    Ensures (backend reply phase) post pause control := by
  unfold backend
  cases hreply : reply.ok with
  | true => exact hok hreply
  | false =>
      simp only [Bool.false_eq_true, if_false]
      apply hfailed hreply
      · split <;> simp
      · rfl
      · rfl

theorem query_ensures (phase : String) (pause : Control → Prop) (control : Control) :
    Ensures (query request host phase) (Queried request control) pause control := by
  unfold query
  rw [ensures_bind, ensures_modifyGet]
  generalize host.query control.trace request.imageName = answer
  obtain ⟨reply, snapshot⟩ := answer
  dsimp only
  rw [ensures_bind]
  apply backend_ensures
  · intro hok
    rw [if_pos rfl, ensures_modifyGet]
    exact ⟨⟨⟨_, rfl, by simp [ControlEvent.quiet]⟩, rfl⟩, ⟨reply, snapshot, rfl⟩,
      fun _ => ⟨reply, hok, rfl⟩, fun _ => rfl, by simp⟩
  · intro _ result herror hchanged _
    rw [if_neg (by simp), ensures_pure]
    exact ⟨⟨⟨_, rfl, by simp [ControlEvent.quiet]⟩, hchanged⟩, ⟨reply, snapshot, rfl⟩, by simp,
      by simp, fun _ => herror⟩

theorem pausePoll_ensures (began budget : UInt64) (pause : Control → Prop) (control : Control) :
    Ensures (pausePoll host began budget)
      (fun _ after => Quiet control after ∧ after.result = control.result) pause control := by
  unfold pausePoll now
  rw [ensures_bind, ensures_modifyGet]
  dsimp only
  split
  · exact ⟨.saw control _ rfl, rfl⟩
  · exact ⟨(Quiet.saw control _ rfl).trans (.saw _ _ rfl), rfl⟩

theorem expired_ensures {post : Bool → Control → Prop} {pause : Control → Prop}
    (began budget : UInt64) (control : Control)
    (hpost : ∀ reading, post (decide (budget ≤ reading - began)) (control.saw (.clock reading))) :
    Ensures (expired host began budget) post pause control := by
  unfold expired now
  rw [ensures_bind, ensures_modifyGet]
  exact hpost _

end Steps

/-! ## Polling -/

/-- Since `origin` only quiet calls were made, and of the result only the snapshot may be
another. -/
structure Undisturbed (origin control : Control) : Prop where
  quiet : Quiet origin control
  result : control.result = { origin.result with snapshot := control.result.snapshot }

namespace Undisturbed

variable {origin control next : Control} {request : ProcessControlRequest}

theorem refl (control : Control) : Undisturbed control control :=
  ⟨.refl control, rfl⟩

theorem saw (hsame : Undisturbed origin control) (event : ControlEvent)
    (hquiet : event.quiet = true) : Undisturbed origin (control.saw event) :=
  ⟨hsame.quiet.trans (.saw control event hquiet), hsame.result⟩

theorem query (hsame : Undisturbed origin control) (hquery : Queried request control true next) :
    Undisturbed origin next := by
  refine ⟨hsame.quiet.trans hquery.quiet, ?_⟩
  rw [hquery.result rfl, hsame.result]

theorem pause (hsame : Undisturbed origin control) (hquiet : Quiet control next)
    (hresult : next.result = control.result) : Undisturbed origin next := by
  refine ⟨hsame.quiet.trans hquiet, ?_⟩
  rw [hresult]
  exact hsame.result

theorem error (hsame : Undisturbed origin control) : control.result.error = origin.result.error := by
  rw [hsame.result]

end Undisturbed

/-- The last reading was at or after the deadline, and after `origin`. -/
def Expired (origin : Control) (began budget : UInt64) (control : Control) : Prop :=
  ∃ polled reading, control.trace = origin.trace ++ polled ++ [.clock reading] ∧
    (∀ event ∈ polled, event.quiet = true) ∧ budget ≤ reading - began

theorem Undisturbed.expired {origin control : Control} (hsame : Undisturbed origin control)
    {began budget reading : UInt64} (hlate : budget ≤ reading - began) :
    Expired origin began budget (control.saw (.clock reading)) := by
  obtain ⟨tail, htrace, hquiet⟩ := hsame.quiet.trace
  exact ⟨tail, reading, by rw [Control.saw, htrace], hquiet, hlate⟩

section Loops

variable {request : ProcessControlRequest} {host : ProcessControlHost} {origin : Control}
  {began budget : UInt64}

/-- How `poll_for_stopped` leaves its loop. -/
def StoppedPolled (origin : Control) (began budget : UInt64) : Polled → Control → Prop
  | .failed, after => Quiet origin after ∧ after.result.error ≠ .timeout
  | .reached, after => Undisturbed origin after ∧
      Observed after.trace after.result.snapshot ∧ after.result.snapshot.running = false
  | .late, after => Undisturbed origin after ∧ Expired origin began budget after

theorem stoppedRound_ensures (phase : String) (control : Control)
    (hsame : Undisturbed origin control) :
    Ensures (stoppedRound request host began budget phase)
      (Round (StoppedPolled origin began budget) (Undisturbed origin)) (Undisturbed origin)
      control := by
  unfold stoppedRound
  rw [ensures_bind]
  apply expired_ensures
  intro first
  have hfirst := hsame.saw (.clock first) rfl
  by_cases hlate : budget ≤ first - began
  · rw [decide_eq_true hlate, if_pos rfl, ensures_pure]
    exact ⟨hfirst, hsame.expired hlate⟩
  · rw [decide_eq_false hlate, if_neg (by simp)]
    apply (query_ensures phase (Undisturbed origin) (control.saw (.clock first))).bind
    intro ok queried hquery
    cases ok with
    | false => exact ⟨hfirst.quiet.trans hquery.quiet, hquery.failed rfl⟩
    | true =>
        have hqueried := hfirst.query hquery
        rw [if_neg (by simp), ensures_bind]
        apply expired_ensures
        intro second
        have hsecond := hqueried.saw (.clock second) rfl
        by_cases hover : budget ≤ second - began
        · rw [decide_eq_true hover, if_pos rfl, ensures_pure]
          exact ⟨hsecond, hqueried.expired hover⟩
        · rw [decide_eq_false hover, if_neg (by simp), ensures_bind, ensures_get]
          cases hrunning : (queried.saw (.clock second)).result.snapshot.running with
          | false => exact ⟨hsecond, hquery.observed.snoc _ rfl, hrunning⟩
          | true =>
              rw [if_neg (by simp)]
              apply (pausePoll_ensures began budget _ _).bind
              intro _ after hpause
              exact hsecond.pause hpause.1 hpause.2

/-- What `poll_for_stopped` ends in. -/
structure Awaited (began budget : UInt64) (phase : String) (origin : Control) (ok : Bool)
    (after : Control) : Prop where
  quiet : Quiet origin after
  reached : ok = true → Observed after.trace after.result.snapshot ∧
    after.result.snapshot.running = false ∧ after.result.error = origin.result.error
  late : ok = false → after.result.error = .timeout →
    after.result.phase = phase ∧ Expired origin began budget after

theorem stoppedLoop_ensures (rounds : Nat) (phase : String) (origin : Control) :
    Ensures (repeatUntil rounds (stoppedRound request host began budget phase))
      (StoppedPolled origin began budget) (Quiet origin) origin :=
  (ensures_repeatUntil (Undisturbed origin)
    (fun control hsame => stoppedRound_ensures phase control hsame) (fun _ hsame => hsame) rounds
    origin (.refl origin)).mono (fun _ _ hpolled => hpolled) fun _ hsame => hsame.quiet

theorem pollForStopped_ensures (rounds : Nat) (phase : String) (origin : Control) :
    Ensures (pollForStopped request host rounds began budget phase)
      (Awaited began budget phase origin) (Quiet origin) origin := by
  unfold pollForStopped
  apply (stoppedLoop_ensures rounds phase origin).bind
  intro polled after hpolled
  cases polled with
  | failed => exact ⟨hpolled.1, by simp, fun _ herror => absurd herror hpolled.2⟩
  | reached => exact ⟨hpolled.1.quiet, fun _ => ⟨hpolled.2.1, hpolled.2.2, hpolled.1.error⟩, by simp⟩
  | late =>
      exact ⟨hpolled.1.quiet.trans (.result after rfl), by simp, fun _ _ => ⟨rfl, hpolled.2⟩⟩

/-- The latest query found the process running, and the clock was read before the deadline
after it. -/
def InTime (origin : Control) (began budget : UInt64) (control : Control) : Prop :=
  ∃ polled name reply snapshot reading,
    control.trace = origin.trace ++ polled ++ [.query name reply snapshot, .clock reading] ∧
      (∀ event ∈ polled, event.quiet = true) ∧ reply.ok = true ∧ snapshot.running = true ∧
      reading - began < budget

/-- How `start` leaves its poll loop. -/
def StartPolled (origin : Control) (began budget : UInt64) : Polled → Control → Prop
  | .failed, after => Quiet origin after ∧ after.result.error ≠ .timeout
  | .reached, after => Undisturbed origin after ∧ InTime origin began budget after
  | .late, after => Undisturbed origin after

theorem startRound_ensures (control : Control) (hsame : Undisturbed origin control) :
    Ensures (startRound request host began budget)
      (Round (StartPolled origin began budget) (Undisturbed origin)) (Undisturbed origin) control := by
  unfold startRound
  apply (query_ensures "start_poll" (Undisturbed origin) control).bind
  intro ok queried hquery
  cases ok with
  | false => exact ⟨hsame.quiet.trans hquery.quiet, hquery.failed rfl⟩
  | true =>
      have hqueried := hsame.query hquery
      obtain ⟨reply, hok, htrace⟩ := hquery.last rfl
      obtain ⟨tail, htail, hquietTail⟩ := hsame.quiet.trace
      rw [if_neg (by simp)]
      have hcheck : Ensures (do
          if (← get).result.snapshot.running then
            pure (!(← expired host began budget))
          else
            pure false)
          (fun up after => Undisturbed origin after ∧ (up = true → InTime origin began budget after))
          (Undisturbed origin) queried := by
        rw [ensures_bind, ensures_get]
        cases hrunning : queried.result.snapshot.running with
        | false => exact ⟨hqueried, by simp⟩
        | true =>
            rw [if_pos rfl, ensures_bind]
            apply expired_ensures
            intro reading
            refine ⟨hqueried.saw _ rfl, fun hup => ?_⟩
            have hbefore : ¬ budget ≤ reading - began := by simpa using hup
            refine ⟨tail, request.imageName, reply, queried.result.snapshot, reading, ?_, hquietTail,
              hok, hrunning, UInt64.not_le.mp hbefore⟩
            simp [Control.saw, htrace, htail]
      apply hcheck.bind
      rintro up checked ⟨hchecked, hintime⟩
      cases up with
      | true => exact ⟨hchecked, hintime rfl⟩
      | false =>
          rw [if_neg (by simp), ensures_bind]
          apply expired_ensures
          intro reading
          have hread := hchecked.saw (.clock reading) rfl
          by_cases hover : budget ≤ reading - began
          · rw [decide_eq_true hover, if_pos rfl, ensures_pure]
            exact hread
          · rw [decide_eq_false hover, if_neg (by simp)]
            apply (pausePoll_ensures began budget _ _).bind
            intro _ after hpause
            exact hread.pause hpause.1 hpause.2

theorem startLoop_ensures (rounds : Nat) (origin : Control) :
    Ensures (repeatUntil rounds (startRound request host began budget))
      (StartPolled origin began budget) (Quiet origin) origin :=
  (ensures_repeatUntil (Undisturbed origin)
    (fun control hsame => startRound_ensures control hsame) (fun _ hsame => hsame) rounds origin
    (.refl origin)).mono (fun _ _ hpolled => hpolled) fun _ hsame => hsame.quiet

end Loops

/-! ## Starting and stopping -/

section Phases

variable {request : ProcessControlRequest} {host : ProcessControlHost}

/-- A result that tells of a start that timed out goes with a process that does not run. -/
def TimeoutStopped (control : Control) : Prop :=
  control.result.error = .timeout → control.result.phase = "start_poll" →
    Reports control.trace false

theorem Awaited.timeoutStopped {began budget : UInt64} {phase : String} {origin after : Control}
    (hawaited : Awaited began budget phase origin false after) (hphase : phase ≠ "start_poll") :
    TimeoutStopped after := by
  intro herror hstart
  have hname := (hawaited.late rfl herror).1
  exact absurd (hname.symm.trans hstart) hphase

theorem TimeoutStopped.of_error {control : Control} (herror : control.result.error ≠ .timeout) :
    TimeoutStopped control :=
  fun htimeout _ => absurd htimeout herror

/-- Nothing was started yet, no error was noted, and the snapshot is that of the latest
query. -/
structure Ready (request : ProcessControlRequest) (control : Control) : Prop where
  steady : Steady request control
  observed : Observed control.trace control.result.snapshot
  no_start : ∀ event ∈ control.trace, event.isStart = false
  clean : control.result.error = .none

/-- Every start up to now came right after a reading, and after it the process was found
running in time. -/
def StartedInTime (request : ProcessControlRequest) (trace : List ControlEvent) : Prop :=
  ∀ before began reply started after,
    trace = before ++ [.clock began, .start reply started] ++ after →
      ∃ polled name answer snapshot reading,
        after = polled ++ [.query name answer snapshot, .clock reading] ∧ answer.ok = true ∧
          snapshot.running = true ∧ reading - began < nanoseconds request.startupTimeoutMs

/-- What `start` ends in. -/
structure Launched (request : ProcessControlRequest) (ok : Bool) (after : Control) : Prop where
  steady : Steady request after
  running : ok = true → Reports after.trace true ∧ StartedInTime request after.trace
  timeout : TimeoutStopped after

theorem start_notMem {trace : List ControlEvent}
    (hnone : ∀ event ∈ trace, event.isStart = false) {reply : ProcessBackendResult}
    {started : ProcessSnapshot} : ControlEvent.start reply started ∉ trace := by
  intro hmem
  exact absurd (hnone _ hmem) (by simp [ControlEvent.isStart])

/-- A trace in which nothing was started has no start to be late. -/
theorem startedInTime_of_none {trace : List ControlEvent}
    (hnone : ∀ event ∈ trace, event.isStart = false) : StartedInTime request trace := by
  intro before began reply started after hsplit
  exact absurd (hsplit ▸ by simp) (@start_notMem trace hnone reply started)

/-- A justified call, with the mark of a change set as the call asks for. -/
theorem Steady.act {control : Control} (hsteady : Steady request control) {event : ControlEvent}
    (hauthorised : Authorised request control.trace event) {result : ProcessControlResult}
    (hchanged : result.changed = (control.result.changed || event.changes)) :
    Steady request { control.saw event with result } := by
  refine ⟨hsteady.authorised.snoc hauthorised, ?_⟩
  change result.changed = true ↔ ∃ later ∈ control.trace ++ [event], later.changes = true
  rw [hchanged, Bool.or_eq_true, hsteady.changed_iff]
  constructor
  · rintro (⟨earlier, hearlier, hchanges⟩ | hchanges)
    · exact ⟨earlier, List.mem_append_left _ hearlier, hchanges⟩
    · exact ⟨event, by simp, hchanges⟩
  · rintro ⟨later, hlater, hchanges⟩
    rcases List.mem_append.mp hlater with hearlier | hlast
    · exact .inl ⟨later, hearlier, hchanges⟩
    · obtain rfl := List.mem_singleton.mp hlast
      exact .inr hchanges

/-- A justified call that changed nothing. -/
theorem Steady.refused {control : Control} (hsteady : Steady request control) {event : ControlEvent}
    (hauthorised : Authorised request control.trace event) (hchanges : event.changes = false)
    {result : ProcessControlResult} (hchanged : result.changed = control.result.changed) :
    Steady request { control.saw event with result } :=
  hsteady.act hauthorised (by rw [hchanged, hchanges, Bool.or_false])

/-- Another result with the same mark of a change. -/
theorem Steady.retold {control : Control} (hsteady : Steady request control)
    {result : ProcessControlResult} (hchanged : result.changed = control.result.changed) :
    Steady request { control with result } :=
  (Quiet.result control hchanged).steady hsteady

theorem startLate_ensures (rounds : Nat) (started : ProcessSnapshot) (control : Control)
    (hsteady : Steady request control)
    (hone : ∀ reply snapshot, .start reply snapshot ∈ control.trace →
      reply.ok = true ∧ started = snapshot)
    (hsome : ∃ event ∈ control.trace, event.isStart = true) :
    Ensures (startLate request host rounds started)
      (fun ok after => ok = false ∧ Steady request after ∧ TimeoutStopped after)
      (Steady request) control := by
  unfold startLate
  apply (query_ensures "start_timeout_query" (Steady request) control).bind
  intro ok queried hquery
  have hqueried := hquery.quiet.steady hsteady
  cases ok with
  | false =>
      rw [if_pos (by simp), ensures_modifyGet]
      refine ⟨rfl, hqueried.retold ?_, .of_error (hquery.failed rfl)⟩
      rfl
  | true =>
      rw [if_neg (by simp)]
      have hcleanup : Ensures (do
          if (← get).result.snapshot.running then do
            let reply ← modifyGet fun control =>
              let reply := host.terminate control.trace started
              (reply, control.saw (.terminate started reply))
            if ← backend reply "start_timeout_terminate" then do
              let cleanup ← now host
              pollForStopped request host rounds cleanup (nanoseconds request.stopTimeoutMs)
                "start_timeout_cleanup_poll"
            else
              pure false
          else
            pure true)
          (fun gone after => Steady request after ∧ (gone = true → Reports after.trace false) ∧
            (gone = false → TimeoutStopped after)) (Steady request) queried := by
        rw [ensures_bind, ensures_get]
        cases hrunning : queried.result.snapshot.running with
        | false =>
            exact ⟨hqueried, fun _ => ⟨_, hquery.observed, hrunning⟩, by simp⟩
        | true =>
            rw [if_pos rfl, ensures_bind, ensures_modifyGet]
            dsimp only
            generalize host.terminate queried.trace started = reply
            have hauthorised : Authorised request queried.trace (.terminate started reply) := by
              refine ⟨fun answer snapshot hmem => ?_, fun hnone => ?_⟩
              · exact hone answer snapshot (hquery.quiet.mem_start hmem rfl)
              · obtain ⟨event, hevent, hstart⟩ := hsome
                obtain ⟨tail, htrace, -⟩ := hquery.quiet.trace
                have hkept : event ∈ queried.trace := by
                  rw [htrace]
                  exact List.mem_append_left _ hevent
                exact absurd (hnone event hkept) (by simp [hstart])
            have hterminated : ∀ result : ProcessControlResult,
                result.changed = queried.result.changed →
                  Steady request { queried.saw (.terminate started reply) with result } :=
              fun _ hchanged => hqueried.refused hauthorised rfl hchanged
            rw [ensures_bind]
            apply backend_ensures
            · intro _
              rw [if_pos rfl, ensures_bind]
              unfold now
              rw [ensures_modifyGet]
              refine (pollForStopped_ensures rounds _ _).mono ?_ ?_
              · intro gone after hawaited
                have hsteadyAfter := hawaited.quiet.steady
                  ((Quiet.saw _ _ rfl).steady (hterminated _ rfl))
                refine ⟨hsteadyAfter, fun hgone => ?_, fun hgone => ?_⟩
                · exact ⟨_, (hawaited.reached hgone).1, (hawaited.reached hgone).2.1⟩
                · subst hgone
                  exact hawaited.timeoutStopped (by decide)
              · intro paused hquiet
                exact hquiet.steady ((Quiet.saw _ _ rfl).steady (hterminated _ rfl))
            · intro _ result herror hchanged _
              rw [if_neg (by simp), ensures_pure]
              exact ⟨hterminated result hchanged, by simp, fun _ => .of_error herror⟩
      apply hcleanup.bind
      rintro gone after ⟨hafter, hreports, htimeout⟩
      cases gone with
      | true =>
          refine ⟨rfl, hafter.retold ?_, fun _ _ => hreports rfl⟩
          rfl
      | false => exact ⟨rfl, hafter, htimeout rfl⟩

theorem start_ensures (rounds : Nat) (control : Control) (hready : Ready request control) :
    Ensures (start request host rounds) (Launched request) (Steady request) control := by
  unfold start
  rw [ensures_bind, ensures_get]
  have hclean : control.result.error ≠ .timeout := by simp [hready.clean]
  cases hrunning : control.result.snapshot.running with
  | true =>
      exact ⟨hready.steady, fun _ => ⟨⟨_, hready.observed, hrunning⟩,
        startedInTime_of_none hready.no_start⟩, .of_error hclean⟩
  | false =>
      rw [if_neg (by simp), ensures_bind]
      unfold now
      rw [ensures_modifyGet]
      dsimp only
      generalize host.nowNs control.trace = began
      rw [ensures_bind, ensures_modifyGet]
      generalize host.start (control.saw (.clock began)).trace request = answer
      obtain ⟨reply, started⟩ := answer
      dsimp only
      have hread := (Quiet.saw control (.clock began) rfl)
      have hreadSteady := hread.steady hready.steady
      have hauthorised : Authorised request (control.saw (.clock began)).trace
          (.start reply started) :=
        ⟨⟨_, hready.observed.snoc _ rfl, hrunning⟩, hread.no_start hready.no_start,
          control.trace, began, rfl⟩
      rw [ensures_bind]
      apply backend_ensures
      · intro hok
        rw [if_neg (by simp), ensures_bind, ensures_modifyGet]
        generalize hlaunch : ({ (control.saw (.clock began)).saw (.start reply started) with
          result := { ((control.saw (.clock began)).saw (.start reply started)).result with
            snapshot := started, changed := true } } : Control) = launched
        have hlaunched : Steady request launched := by
          rw [← hlaunch]
          exact hreadSteady.act hauthorised (by simp [ControlEvent.changes, hok])
        have htrace : launched.trace =
            control.trace ++ [.clock began, .start reply started] := by
          rw [← hlaunch]
          simp [Control.saw]
        have hone : ∀ other snapshot, .start other snapshot ∈ launched.trace →
            other = reply ∧ snapshot = started := by
          intro other snapshot hmem
          rw [htrace] at hmem
          rcases List.mem_append.mp hmem with hearlier | hlast
          · exact absurd (hready.no_start _ hearlier) (by simp [ControlEvent.isStart])
          · simpa using hlast
        refine ((startLoop_ensures rounds launched).mono (fun _ _ hpolled => hpolled)
          fun paused hquiet => hquiet.steady hlaunched).bind ?_
        intro polled after hpolled
        cases polled with
        | failed =>
            exact ⟨hpolled.1.steady hlaunched, by simp, .of_error hpolled.2⟩
        | reached =>
            obtain ⟨hsame, tail, name, other, snapshot, reading, hafter, htail, hother, hup, hintime⟩ :=
              hpolled
            refine ⟨hsame.quiet.steady hlaunched, fun _ => ⟨⟨snapshot, ?_, hup⟩, ?_⟩, ?_⟩
            · rw [hafter]
              have hlast := (observed_snoc (launched.trace ++ tail) name snapshot hother).snoc (.clock reading) rfl
              simpa using hlast
            · intro before asked answer found rest hsplit
              have hlist : (control.trace ++ [.clock began]) ++ .start reply started ::
                  (tail ++ [.query name other snapshot, .clock reading]) =
                    (before ++ [.clock asked]) ++ .start answer found :: rest := by
                simpa [hafter, htrace] using hsplit
              obtain ⟨hbefore, -, hrest⟩ := (List.append_cons_inj_of_notMem
                (start_notMem (hread.no_start hready.no_start)) (start_notMem (by
                  intro event hevent
                  rcases List.mem_append.mp hevent with hpolled | hlast
                  · exact ControlEvent.isStart_of_quiet (htail event hpolled)
                  · simp at hlast
                    rcases hlast with rfl | rfl <;> rfl))).mp hlist
              obtain ⟨-, hasked⟩ := List.append_inj' hbefore rfl
              obtain rfl : began = asked := by simpa using hasked
              exact ⟨tail, name, other, snapshot, reading, hrest.symm, hother, hup, hintime⟩
            · apply TimeoutStopped.of_error
              rw [hsame.error, ← hlaunch]
              exact hclean
        | late =>
            have hlate := hpolled.quiet.steady hlaunched
            refine (startLate_ensures rounds started after hlate ?_ ?_).mono ?_ fun _ hpause => hpause
            · intro other snapshot hmem
              obtain ⟨hreply, hsnapshot⟩ := hone other snapshot (hpolled.quiet.mem_start hmem rfl)
              exact ⟨hreply ▸ hok, hsnapshot.symm⟩
            · obtain ⟨tail, hafter, -⟩ := hpolled.quiet.trace
              exact ⟨.start reply started, by simp [hafter, htrace], rfl⟩
            · rintro ok last ⟨rfl, hlast, htimeout⟩
              exact ⟨hlast, by simp, htimeout⟩
      · intro hfailed result herror hchanged _
        rw [if_pos (by simp), ensures_pure]
        exact ⟨hreadSteady.refused hauthorised hfailed hchanged, by simp, .of_error herror⟩

/-- What `stop` ends in. -/
structure Halted (request : ProcessControlRequest) (ok : Bool) (after : Control) : Prop where
  steady : Steady request after
  stopped : ok = true → Ready request after ∧ after.result.snapshot.running = false
  timeout : TimeoutStopped after

/-- The time to stop is over: the process was asked to stop and was polled until the
deadline. -/
def StopExpired (request : ProcessControlRequest) (control : Control) : Prop :=
  ∃ earlier asked accepted began polled reading,
    control.trace =
      earlier ++ [.requestStop asked accepted, .clock began] ++ polled ++ [.clock reading] ∧
    accepted.ok = true ∧ (∀ event ∈ polled, event.quiet = true) ∧
    nanoseconds request.stopTimeoutMs ≤ reading - began

/-- Waiting for a process to go that nothing has started. -/
theorem Awaited.halted {began budget : UInt64} {phase : String} {origin after : Control} {ok : Bool}
    (hawaited : Awaited began budget phase origin ok after) (hsteady : Steady request origin)
    (hnone : ∀ event ∈ origin.trace, event.isStart = false) (hclean : origin.result.error = .none)
    (hphase : phase ≠ "start_poll") : Halted request ok after := by
  have hafter := hawaited.quiet.steady hsteady
  refine ⟨hafter, fun hok => ?_, ?_⟩
  · obtain ⟨hobserved, hrunning, herror⟩ := hawaited.reached hok
    exact ⟨⟨hafter, hobserved, hawaited.quiet.no_start hnone, herror.trans hclean⟩, hrunning⟩
  · cases ok with
    | false => exact hawaited.timeoutStopped hphase
    | true =>
        apply TimeoutStopped.of_error
        rw [(hawaited.reached rfl).2.2, hclean]
        decide

theorem forceStop_ensures (rounds : Nat) (control : Control) (hsteady : Steady request control)
    (hnone : ∀ event ∈ control.trace, event.isStart = false)
    (hforce : request.forceTerminate = true) (hexpired : StopExpired request control) :
    Ensures (forceStop request host rounds (nanoseconds request.stopTimeoutMs)) (Halted request)
      (Steady request) control := by
  unfold forceStop
  rw [ensures_bind, ensures_modifyGet]
  generalize hcleared : ({ control with
    result := { control.result with
      error := .none, nativeError := 0, phase := "", message := CString.literal "" } } : Control) =
    cleared
  have htrace : cleared.trace = control.trace := by rw [← hcleared]
  have hclean : cleared.result.error = .none := by rw [← hcleared]
  have hclearedSteady : Steady request cleared := by
    rw [← hcleared]
    apply hsteady.retold
    rfl
  apply (query_ensures "force_query" (Steady request) cleared).bind
  intro ok queried hquery
  have hqueried := hquery.quiet.steady hclearedSteady
  cases ok with
  | false => exact ⟨hqueried, by simp, .of_error (hquery.failed rfl)⟩
  | true =>
      have hnoStart : ∀ event ∈ queried.trace, event.isStart = false :=
        hquery.quiet.no_start (htrace ▸ hnone)
      have hcleanQueried : queried.result.error = .none := by
        rw [hquery.result rfl]
        exact hclean
      rw [if_neg (by simp), ensures_bind, ensures_get]
      cases hrunning : queried.result.snapshot.running with
      | false =>
          exact ⟨hqueried, fun _ => ⟨⟨hqueried, hquery.observed, hnoStart, hcleanQueried⟩, hrunning⟩,
            .of_error (by simp [hcleanQueried])⟩
      | true =>
          rw [if_neg (by simp), ensures_bind, ensures_modifyGet]
          dsimp only
          generalize host.terminate queried.trace queried.result.snapshot = reply
          have hforced : Forced request queried.trace queried.result.snapshot := by
            obtain ⟨earlier, asked, accepted, began, polled, reading, hstop, hok, hquiet, hlate⟩ :=
              hexpired
            obtain ⟨answer, hanswer, hlast⟩ := hquery.last rfl
            refine ⟨hforce, earlier, asked, accepted, began, polled, reading, request.imageName, answer,
              ?_, hok, hquiet, hlate, hanswer, hrunning⟩
            rw [hlast, htrace, hstop]
            simp
          have hauthorised : Authorised request queried.trace
              (.terminate queried.result.snapshot reply) :=
            ⟨fun _ _ hmem => absurd hmem (start_notMem hnoStart), fun _ => hforced⟩
          rw [ensures_bind]
          apply backend_ensures
          · intro _
            rw [if_neg (by simp), ensures_bind]
            unfold now
            rw [ensures_modifyGet]
            generalize hterminated :
              queried.saw (.terminate queried.result.snapshot reply) = terminated
            have hsteadyTerminated : Steady request terminated := by
              rw [← hterminated]
              exact hqueried.refused hauthorised rfl rfl
            have hnoneTerminated : ∀ event ∈ terminated.trace, event.isStart = false := by
              rw [← hterminated]
              intro event hevent
              rcases List.mem_append.mp hevent with hearlier | hlast
              · exact hnoStart event hearlier
              · obtain rfl := List.mem_singleton.mp hlast
                rfl
            have hread := Quiet.saw terminated (.clock (host.nowNs terminated.trace)) rfl
            have hsteadyRead := hread.steady hsteadyTerminated
            refine (pollForStopped_ensures rounds _ _).mono ?_ ?_
            · intro gone after hawaited
              apply hawaited.halted hsteadyRead (hread.no_start hnoneTerminated) ?_ (by decide)
              change terminated.result.error = .none
              rw [← hterminated]
              exact hcleanQueried
            · exact fun paused hquiet => hquiet.steady hsteadyRead
          · intro _ result herror hchanged _
            rw [if_pos (by simp), ensures_pure]
            exact ⟨hqueried.refused hauthorised rfl hchanged, by simp, .of_error herror⟩

theorem stop_ensures (rounds : Nat) (control : Control) (hready : Ready request control) :
    Ensures (stop request host rounds) (Halted request) (Steady request) control := by
  unfold stop
  rw [ensures_bind, ensures_get]
  cases hrunning : control.result.snapshot.running with
  | false =>
      exact ⟨hready.steady, fun _ => ⟨hready, hrunning⟩, .of_error (by simp [hready.clean])⟩
  | true =>
      rw [if_neg (by simp), ensures_bind, ensures_modifyGet]
      dsimp only
      generalize host.requestStop control.trace control.result.snapshot = reply
      have hauthorised : Authorised request control.trace
          (.requestStop control.result.snapshot reply) :=
        ⟨hready.observed, hrunning, hready.no_start⟩
      rw [ensures_bind]
      apply backend_ensures
      · intro hok
        rw [if_neg (by simp), ensures_bind, ensures_modifyGet, ensures_bind]
        unfold now
        rw [ensures_modifyGet]
        dsimp only
        generalize hasked : ({ control.saw (.requestStop control.result.snapshot reply) with
          result := { (control.saw (.requestStop control.result.snapshot reply)).result with
            changed := true } } : Control) = asked
        have hsteadyAsked : Steady request asked := by
          rw [← hasked]
          exact hready.steady.act hauthorised (by simp [ControlEvent.changes, hok])
        have htrace : asked.trace =
            control.trace ++ [.requestStop control.result.snapshot reply] := by
          rw [← hasked]
          rfl
        have hcleanAsked : asked.result.error = .none := by
          rw [← hasked]
          exact hready.clean
        have hnoneAsked : ∀ event ∈ asked.trace, event.isStart = false := by
          rw [htrace]
          intro event hevent
          rcases List.mem_append.mp hevent with hearlier | hlast
          · exact hready.no_start event hearlier
          · obtain rfl := List.mem_singleton.mp hlast
            rfl
        generalize host.nowNs _ = began
        have hread := Quiet.saw asked (.clock began) rfl
        have hsteadyRead := hread.steady hsteadyAsked
        have hnoneRead := hread.no_start hnoneAsked
        refine ((pollForStopped_ensures rounds "stop_poll" (asked.saw (.clock began))).mono
          (fun _ _ hawaited => hawaited) fun _ hquiet => hquiet.steady hsteadyRead).bind ?_
        intro ok after hawaited
        have hhalted := hawaited.halted hsteadyRead hnoneRead hcleanAsked (by decide)
        cases ok with
        | true => exact hhalted
        | false =>
            rw [if_neg (by simp), ensures_bind, ensures_get]
            split
            · exact hhalted
            · rename_i hforce
              obtain ⟨herror, hforce⟩ := not_or.mp hforce
              have hforce : request.forceTerminate = true := by simpa using hforce
              obtain ⟨tail, reading, hafter, hquiet, hlate⟩ :=
                (hawaited.late rfl (not_not.mp herror)).2
              apply forceStop_ensures rounds after (hawaited.quiet.steady hsteadyRead)
                (hawaited.quiet.no_start hnoneRead) hforce
              refine ⟨control.trace, control.result.snapshot, reply, began, tail, reading, ?_, hok,
                hquiet, hlate⟩
              rw [hafter, Control.saw, htrace]
              simp
      · intro hfailed result herror hchanged _
        rw [if_pos (by simp), ensures_pure]
        exact ⟨hready.steady.refused hauthorised hfailed hchanged, by simp, .of_error herror⟩

/-- What an operation ends in. -/
structure Performed (request : ProcessControlRequest) (operation : ProcessOperation)
    (origin : Control) (ok : Bool) (after : Control) : Prop where
  steady : Steady request after
  started : ok = true → operation = .start ∨ operation = .restart →
    Reports after.trace true ∧ StartedInTime request after.trace
  stopped : ok = true → operation = .stop → Reports after.trace false
  status : operation = .status → after.trace = origin.trace
  timeout : TimeoutStopped after

theorem Launched.performed {origin after : Control} {operation : ProcessOperation} {ok : Bool}
    (hlaunched : Launched request ok after)
    (hoperation : operation = .start ∨ operation = .restart) :
    Performed request operation origin ok after := by
  refine ⟨hlaunched.steady, fun hok _ => hlaunched.running hok, fun _ hstop => ?_, fun hstatus => ?_,
    hlaunched.timeout⟩
  · subst hstop
    simp at hoperation
  · subst hstatus
    simp at hoperation

theorem perform_ensures (rounds : Nat) (operation : ProcessOperation) (control : Control)
    (hready : Ready request control) :
    Ensures (perform request host rounds operation) (Performed request operation control)
      (fun paused => Steady request paused ∧ operation ≠ .status) control := by
  cases operation with
  | status =>
      exact ⟨hready.steady, by simp, by simp, fun _ => rfl, .of_error (by simp [hready.clean])⟩
  | start =>
      exact (start_ensures rounds control hready).mono
        (fun _ _ hlaunched => hlaunched.performed (.inl rfl)) fun _ hsteady => ⟨hsteady, by simp⟩
  | stop =>
      refine (stop_ensures rounds control hready).mono ?_ fun _ hsteady => ⟨hsteady, by simp⟩
      intro ok after hhalted
      refine ⟨hhalted.steady, by simp, fun hok _ => ?_, by simp, hhalted.timeout⟩
      obtain ⟨hreadyAfter, hrunning⟩ := hhalted.stopped hok
      exact ⟨_, hreadyAfter.observed, hrunning⟩
  | restart =>
      unfold perform
      refine ((stop_ensures rounds control hready).mono (fun _ _ hhalted => hhalted)
        fun _ hsteady => ⟨hsteady, by simp⟩).bind ?_
      intro ok stopped hhalted
      cases ok with
      | false => exact ⟨hhalted.steady, by simp, by simp, by simp, hhalted.timeout⟩
      | true =>
          obtain ⟨hreadyStopped, -⟩ := hhalted.stopped rfl
          rw [if_neg (by simp)]
          apply (query_ensures "restart_query" _ stopped).bind
          intro ok queried hquery
          have hqueried := hquery.quiet.steady hhalted.steady
          cases ok with
          | false => exact ⟨hqueried, by simp, by simp, by simp, .of_error (hquery.failed rfl)⟩
          | true =>
              rw [if_neg (by simp)]
              have hclean : queried.result.error = .none := by
                rw [hquery.result rfl]
                exact hreadyStopped.clean
              have hreadyQueried : Ready request queried :=
                ⟨hqueried, hquery.observed, hquery.quiet.no_start hreadyStopped.no_start, hclean⟩
              exact (start_ensures rounds queried hreadyQueried).mono
                (fun _ _ hlaunched => hlaunched.performed (.inr rfl))
                fun _ hsteady => ⟨hsteady, by simp⟩

end Phases

/-! ## Executions -/

section Execution

variable (request : ProcessControlRequest)

/-- What holds of an execution with its code, if it returned, and of its trace. -/
structure ControlSafe (code : Option Salts) (last : Control) : Prop where
  /-- Every call is justified by the calls before it. -/
  authorised : Justified (Authorised request) last.trace
  start_once : (last.trace.filter ControlEvent.isStart).length ≤ 1
  status_observes : request.operation = some .status →
    ∀ event ∈ last.trace, event.observes = true
  changed_iff : last.result.changed = true ↔ ∃ event ∈ last.trace, event.changes = true
  /-- A start that went well was seen to run, and the clock was read before the deadline after
  that. -/
  started : code = some .ok → last.result.ok = true →
    request.operation = some .start ∨ request.operation = some .restart →
    Reports last.trace true ∧
      ∀ before began reply started after,
        last.trace = before ++ [.clock began, .start reply started] ++ after →
          ∃ polled name answer snapshot reading ended,
            after = polled ++ [.query name answer snapshot, .clock reading, .clock ended] ∧
              answer.ok = true ∧ snapshot.running = true ∧
              reading - began < nanoseconds request.startupTimeoutMs
  timeout : code = some .ok → last.result.error = .timeout → last.result.phase = "start_poll" →
    Reports last.trace false
  stopped : code = some .ok → last.result.ok = true → request.operation = some .stop →
    Reports last.trace false

variable {request} {host : ProcessControlHost}

variable (request) in
/-- What an execution has done before it reads the clock for the last time. -/
structure Concluded (ok : Bool) (after : Control) : Prop where
  steady : Steady request after
  status : request.operation = some .status → ∀ event ∈ after.trace, event.observes = true
  started : ok = true → request.operation = some .start ∨ request.operation = some .restart →
    Reports after.trace true ∧ StartedInTime request after.trace
  stopped : ok = true → request.operation = some .stop → Reports after.trace false
  timeout : TimeoutStopped after

/-- The start of a trace that was only read from is where it was before the reading. -/
theorem startedInTime_clock {trace : List ControlEvent} (hintime : StartedInTime request trace)
    {ended : UInt64} {before after : List ControlEvent} {began : UInt64}
    {reply : ProcessBackendResult} {started : ProcessSnapshot}
    (hsplit : trace ++ [.clock ended] = before ++ [.clock began, .start reply started] ++ after) :
    ∃ polled name answer snapshot reading ended,
      after = polled ++ [.query name answer snapshot, .clock reading, .clock ended] ∧
        answer.ok = true ∧ snapshot.running = true ∧
        reading - began < nanoseconds request.startupTimeoutMs := by
  rcases List.eq_nil_or_concat after with rfl | ⟨rest, final, rfl⟩
  · have hlast := congrArg List.getLast? hsplit
    simp at hlast
  · have hshorter : trace ++ [.clock ended] =
        (before ++ [.clock began, .start reply started] ++ rest) ++ [final] := by
      simpa using hsplit
    obtain ⟨htrace, hfinal⟩ := List.append_inj' hshorter rfl
    obtain rfl : ControlEvent.clock ended = final := by simpa using hfinal
    obtain ⟨polled, name, answer, snapshot, reading, rfl, hok, hrunning, hlt⟩ :=
      hintime before began reply started rest htrace
    exact ⟨polled, name, answer, snapshot, reading, ended, by simp, hok, hrunning, hlt⟩

theorem Queried.observes {before after : Control} {ok : Bool}
    (hquery : Queried request before ok after)
    (hbefore : ∀ event ∈ before.trace, event.observes = true) :
    ∀ event ∈ after.trace, event.observes = true := by
  obtain ⟨reply, snapshot, htrace⟩ := hquery.asked
  rw [htrace]
  intro event hevent
  rcases List.mem_append.mp hevent with hearlier | hlast
  · exact hbefore event hearlier
  · obtain rfl := List.mem_singleton.mp hlast
    rfl

/-- A valid request asks for an operation. -/
theorem operation_of_valid (hvalid : valid request = true) :
    ∃ operation, request.operation = some operation := by
  unfold valid at hvalid
  simp only [Bool.and_eq_true] at hvalid
  exact Option.isSome_iff_exists.mp hvalid.1.1.1.1.1.1

theorem steady_start : Steady request {} := by
  refine ⟨justified_nil, ?_⟩
  simp

theorem start_once_of_justified {trace : List ControlEvent}
    (hauthorised : Justified (Authorised request) trace) :
    (trace.filter ControlEvent.isStart).length ≤ 1 := by
  apply hauthorised.at_most_once
  intro before event hevent hstart
  cases event with
  | start reply started => exact hevent.2.1
  | _ => simp [ControlEvent.isStart] at hstart

/-- The last reading of an execution. -/
theorem Concluded.safe {ok : Bool} {after : Control} (hconcluded : Concluded request ok after)
    (ended durationMs : UInt64) :
    ControlSafe request (some .ok)
      { result := { after.result with ok, durationMs }, trace := after.trace ++ [.clock ended] } := by
  have hclock : Authorised request after.trace (.clock ended) := trivial
  have hsteady : Steady request
      { result := { after.result with ok, durationMs }, trace := after.trace ++ [.clock ended] } :=
    hconcluded.steady.refused hclock rfl rfl
  have hreports : ∀ running, Reports after.trace running →
      Reports (after.trace ++ [.clock ended]) running := by
    rintro running ⟨snapshot, hobserved, hrunning⟩
    exact ⟨snapshot, hobserved.snoc _ rfl, hrunning⟩
  refine ⟨hsteady.authorised, start_once_of_justified hsteady.authorised, ?_, hsteady.changed_iff, ?_,
    ?_, ?_⟩
  · intro hstatus event hevent
    rcases List.mem_append.mp hevent with hearlier | hlast
    · exact hconcluded.status hstatus event hearlier
    · obtain rfl := List.mem_singleton.mp hlast
      rfl
  · intro _ hok hkind
    obtain ⟨hrunning, hintime⟩ := hconcluded.started hok hkind
    exact ⟨hreports _ hrunning, fun before began reply started rest hsplit =>
      startedInTime_clock hintime hsplit⟩
  · exact fun _ herror hphase => hreports _ (hconcluded.timeout herror hphase)
  · exact fun _ hok hstop => hreports _ (hconcluded.stopped hok hstop)

/-- The operation of a request, after a clock was read. -/
theorem operation_ensures (rounds : Nat) {read : Control} (hreadSteady : Steady request read)
    {began : UInt64} (hreadTrace : read.trace = [.clock began])
    (hreadClean : read.result.error = .none) :
    Ensures (do
      if !valid request then
        fail .invalidParameters "validate"
          (CString.literal "managed process parameters are invalid") 0
      else if ← query request host "query" then
        match request.operation with
        | none => pure false
        | some operation => perform request host rounds operation
      else
        pure false) (Concluded request) (ControlSafe request none) read := by
  have hreadObserves : ∀ event ∈ read.trace, event.observes = true := by
    simp [hreadTrace, ControlEvent.observes]
  cases hvalid : valid request with
  | false =>
      rw [if_pos (by simp)]
      refine ⟨hreadSteady.retold ?_, fun _ => ?_, by simp, by simp, .of_error (by simp)⟩
      · rfl
      · simp [hreadTrace, ControlEvent.observes]
  | true =>
      rw [if_neg (by simp)]
      apply (query_ensures "query" _ read).bind
      intro ok queried hquery
      have hqueried := hquery.quiet.steady hreadSteady
      cases ok with
      | false =>
          refine ⟨hqueried, fun _ => ?_, by simp, by simp, .of_error (hquery.failed rfl)⟩
          exact hquery.observes hreadObserves
      | true =>
          rw [if_pos rfl]
          have hreadyQueried : Ready request queried := by
            refine ⟨hqueried, hquery.observed, hquery.quiet.no_start ?_, ?_⟩
            · simp [hreadTrace, ControlEvent.isStart]
            · rw [hquery.result rfl]
              exact hreadClean
          obtain ⟨operation, hoperation⟩ := operation_of_valid hvalid
          rw [hoperation]
          refine (perform_ensures rounds operation queried hreadyQueried).mono ?_ ?_
          · intro ok after hperformed
            refine ⟨hperformed.steady, ?_, ?_, ?_, hperformed.timeout⟩
            · intro hstatus event hevent
              rw [hperformed.status (Option.some.inj (hoperation.symm.trans hstatus))] at hevent
              exact hquery.observes hreadObserves event hevent
            · intro hok hkind
              rw [hoperation] at hkind
              exact hperformed.started hok (hkind.imp Option.some.inj Option.some.inj)
            · intro hok hstop
              exact hperformed.stopped hok (Option.some.inj (hoperation.symm.trans hstop))
          · rintro paused ⟨hsteady, hkind⟩
            refine ⟨hsteady.authorised, start_once_of_justified hsteady.authorised, ?_,
              hsteady.changed_iff, by simp, by simp, by simp⟩
            intro hstatus
            exact absurd (Option.some.inj (hoperation.symm.trans hstatus)) hkind

theorem control_ensures (rounds : Nat) :
    Ensures (control request host rounds) (fun _ => ControlSafe request (some .ok))
      (ControlSafe request none) {} := by
  unfold control now
  rw [ensures_bind, ensures_modifyGet]
  dsimp only
  generalize host.nowNs ({} : Control).trace = began
  generalize hread : ({} : Control).saw (.clock began) = read
  have hreadSteady : Steady request read := by
    rw [← hread]
    exact (Quiet.saw _ _ rfl).steady steady_start
  have hreadTrace : read.trace = [.clock began] := by
    rw [← hread]
    rfl
  have hreadClean : read.result.error = .none := by
    rw [← hread]
    rfl
  apply (operation_ensures rounds hreadSteady hreadTrace hreadClean).bind
  intro ok after hconcluded
  rw [ensures_bind, ensures_modifyGet, ensures_bind, ensures_modifyGet, ensures_modifyGet]
  exact hconcluded.safe _ _

end Execution

/-- Every execution of `praktor_process_control_execute` makes only justified calls, and its
result tells what they came to. -/
theorem praktorProcessControlExecute_safe (request : ProcessControlRequest)
    (host : ProcessControlHost) (rounds : Nat) :
    ControlSafe request (praktorProcessControlExecute request host rounds).1
      (praktorProcessControlExecute request host rounds).2 := by
  unfold praktorProcessControlExecute
  split
  · exact ⟨justified_nil, by simp, by simp, by simp, by simp, by simp, by simp⟩
  · have hcontrol : Ensures (control request host rounds) (fun _ => ControlSafe request (some .ok))
        (ControlSafe request none) {} := control_ensures rounds
    unfold Ensures at hcontrol
    generalize outcome (control request host rounds) {} = reached at hcontrol ⊢
    obtain ⟨result, last⟩ := reached
    cases result with
    | some done => exact hcontrol
    | none => exact hcontrol

end Praktor.Process
