/-
# What the control of a service may do

Which command is justified after which calls, and that every execution dispatches only such
commands.  A command that went well leaves a trace that ends with a reading before the
deadline and a state that the latest status command reported: this is what the next command
is allowed by.
-/

import Praktor.Process.ServiceControl

namespace Praktor.Process

open Praktor.Data Praktor.Math Praktor.Math.Interaction

/-! ## Traces of commands -/

namespace ServiceEvent

/-- A command. -/
def isRun : ServiceEvent → Bool
  | run _ _ _ => true
  | _ => false

/-- A reading of the clock. -/
def isClock : ServiceEvent → Bool
  | clock _ => true
  | _ => false

/-- The slot of a command that starts or stops the service. -/
def mutates : ServiceEvent → Option CommandSlot
  | run .start _ _ => some .start
  | run .stop _ _ => some .stop
  | _ => none

/-- The reply to a status command. -/
def statusReply : ServiceEvent → Option ServiceReply
  | run .status _ reply => some reply
  | _ => none

end ServiceEvent

/-- The command was run and exited with code zero. -/
def ServiceReply.exitedZero (reply : ServiceReply) : Bool :=
  decide (reply.code = .ok ∧ reply.state = .exited ∧ reply.exitCode = 0)

/-- A command that starts or stops the service and exited with code zero. -/
def ServiceEvent.changes : ServiceEvent → Bool
  | run slot _ reply => decide (slot ≠ .status) && reply.exitedZero
  | _ => false

section Terms

variable (config : ServiceConfig) (began budget : UInt64)

/-- The state that the reply to a status command reports. -/
def reported (reply : ServiceReply) : Option ServiceState :=
  if reply.exitedZero ∧ ¬ reply.output.missing ∧ reply.output.size ≤ config.maxOutputBytes then
    praktorServiceParseState reply.output.read
  else
    none

/-- The latest status command reported this state. -/
def StateObserved (trace : List ServiceEvent) (state : ServiceState) : Prop :=
  ∃ reply, latest ServiceEvent.statusReply trace = some reply ∧ reported config reply = some state

/-- At every reading so far there was time left. -/
def Timely (trace : List ServiceEvent) : Prop :=
  ∀ reading, .clock reading ∈ trace → reading - began < budget

/-- The last call was a reading of the clock. -/
def EndsRead (trace : List ServiceEvent) : Prop :=
  ∃ earlier reading, trace = earlier ++ [.clock reading]

/-- The state that was observed allows the command. -/
def Permitted (before : List ServiceEvent) : CommandSlot → Prop
  | .status => True
  | .start => StateObserved config before .stopped
  | .stop => StateObserved config before .running

/-- A call that is justified after the calls before it. -/
def ServiceAuthorised (before : List ServiceEvent) : ServiceEvent → Prop
  | .clock _ => True
  | .sleep _ => EndsRead before
  | .run slot _ _ => Timely began budget before ∧ EndsRead before ∧ Permitted config before slot

/-- Every call so far was justified, and the result tells whether a command changed
anything. -/
structure ServiceSteady (execution : ServiceExecution) : Prop where
  authorised : Justified (ServiceAuthorised config began budget) execution.trace
  changed_iff : execution.result.changed = true ↔
    ∃ event ∈ execution.trace, event.changes = true

/-- A further command may be decided on: the latest status command reported the state in the
result, and the clock was read before the deadline since. -/
structure ServiceLive (execution : ServiceExecution) : Prop where
  timely : Timely began budget execution.trace
  read : EndsRead execution.trace
  observed : StateObserved config execution.trace execution.result.state

end Terms

/-- The commands of an execution that start or stop the service. -/
def ServiceExecution.mutations (execution : ServiceExecution) : List CommandSlot :=
  execution.trace.filterMap ServiceEvent.mutates

section Steps

variable {config : ServiceConfig} {began budget : UInt64}

theorem endsRead_snoc (trace : List ServiceEvent) (reading : UInt64) :
    EndsRead (trace ++ [.clock reading]) := ⟨trace, reading, rfl⟩

theorem Timely.snoc {trace : List ServiceEvent} (htimely : Timely began budget trace)
    {reading : UInt64} (hlt : reading - began < budget) :
    Timely began budget (trace ++ [.clock reading]) := by
  intro other hother
  rcases List.mem_append.mp hother with hearlier | hlast
  · exact htimely other hearlier
  · obtain rfl : other = reading := by simpa using hlast
    exact hlt

theorem Timely.snoc_other {trace : List ServiceEvent} (htimely : Timely began budget trace)
    {event : ServiceEvent} (hclock : event.isClock = false) :
    Timely began budget (trace ++ [event]) := by
  intro other hother
  rcases List.mem_append.mp hother with hearlier | hlast
  · exact htimely other hearlier
  · obtain rfl := List.mem_singleton.mp hlast
    simp [ServiceEvent.isClock] at hclock

theorem StateObserved.snoc {trace : List ServiceEvent} {state : ServiceState}
    (hobserved : StateObserved config trace state) (event : ServiceEvent)
    (hother : event.statusReply = none) : StateObserved config (trace ++ [event]) state := by
  obtain ⟨reply, hlatest, hreported⟩ := hobserved
  refine ⟨reply, ?_, hreported⟩
  rw [latest_snoc, hother, Option.none_or, hlatest]

/-- A justified call, with the mark of a change set as the call asks for. -/
theorem ServiceSteady.act {execution : ServiceExecution}
    (hsteady : ServiceSteady config began budget execution) {event : ServiceEvent}
    (hauthorised : ServiceAuthorised config began budget execution.trace event)
    {result : ServiceResult}
    (hchanged : result.changed = (execution.result.changed || event.changes)) :
    ServiceSteady config began budget { execution.saw event with result } := by
  refine ⟨hsteady.authorised.snoc hauthorised, ?_⟩
  change result.changed = true ↔ ∃ later ∈ execution.trace ++ [event], later.changes = true
  rw [hchanged, Bool.or_eq_true, hsteady.changed_iff]
  constructor
  · rintro (⟨earlier, hearlier, hchanges⟩ | hchanges)
    · exact ⟨earlier, List.mem_append_left _ hearlier, hchanges⟩
    · exact ⟨event, by simp, hchanges⟩
  · rintro ⟨later, hlater, hchanges⟩
    rcases List.mem_append.mp hlater with hearlier | hlast
    · exact .inl ⟨later, hearlier, hchanges⟩
    · obtain rfl := List.mem_singleton.mp hlast
      exact .inr hchanges

/-- A reading. -/
theorem ServiceSteady.clock {execution : ServiceExecution}
    (hsteady : ServiceSteady config began budget execution) (reading : UInt64) :
    ServiceSteady config began budget (execution.saw (.clock reading)) := by
  have hauthorised : ServiceAuthorised config began budget execution.trace (.clock reading) := trivial
  exact hsteady.act hauthorised (Bool.or_false _).symm

/-- Another result with the same mark of a change. -/
theorem ServiceSteady.retold {execution : ServiceExecution}
    (hsteady : ServiceSteady config began budget execution) {result : ServiceResult}
    (hchanged : result.changed = execution.result.changed) :
    ServiceSteady config began budget { execution with result } :=
  ⟨hsteady.authorised, by rw [hchanged]; exact hsteady.changed_iff⟩

theorem mutations_saw (execution : ServiceExecution) (event : ServiceEvent) :
    (execution.saw event).mutations = execution.mutations ++ event.mutates.toList := by
  unfold ServiceExecution.mutations ServiceExecution.saw
  rw [List.filterMap_append]
  cases hmutates : event.mutates with
  | none => simp [hmutates]
  | some slot => simp [hmutates]

theorem mutations_clock (execution : ServiceExecution) (reading : UInt64) :
    (execution.saw (.clock reading)).mutations = execution.mutations := by
  rw [mutations_saw]
  exact List.append_nil _

end Steps

/-! ## Commands -/

section Commands

variable {config : ServiceConfig} {request : ServiceRequest} {host : ServiceHost}
  {prepared : Prepared} {began : UInt64}

theorem Permitted.snoc {trace : List ServiceEvent} {slot : CommandSlot}
    (hpermitted : Permitted config trace slot) (event : ServiceEvent)
    (hother : event.statusReply = none) : Permitted config (trace ++ [event]) slot := by
  cases slot with
  | status => trivial
  | start => exact StateObserved.snoc hpermitted event hother
  | stop => exact StateObserved.snoc hpermitted event hother

variable (config prepared began) in
/-- A command went well: it exited with code zero, and its result came before the deadline. -/
structure WentWell (slot : CommandSlot) (before : ServiceExecution) (reply : ServiceReply)
    (after : ServiceExecution) : Prop where
  exited : reply.exitedZero = true
  bounded : ¬ reply.output.missing ∧ reply.output.size ≤ config.maxOutputBytes
  state : after.result.state = before.result.state
  timely : Timely began prepared.budget after.trace
  shape : ∃ first command second,
    after.trace = before.trace ++ [.clock first, .run slot command reply, .clock second]

variable (config prepared began) in
/-- What a command ends in: justified calls, and the command in the list of those that start
or stop the service. -/
structure Ran (slot : CommandSlot) (before : ServiceExecution) (reply : Option ServiceReply)
    (after : ServiceExecution) : Prop where
  steady : ServiceSteady config began prepared.budget after
  mutations : after.mutations = before.mutations ∨
    slot ≠ .status ∧ after.mutations = before.mutations ++ [slot]
  good : ∀ good, reply = some good → WentWell config prepared began slot before good after

theorem mutates_run (slot : CommandSlot) (command : ServiceCommand) (reply : ServiceReply) :
    (ServiceEvent.run slot command reply).mutates = if slot = .status then none else some slot := by
  cases slot <;> rfl

theorem settle_ensures (slot : CommandSlot) (phase : String) (command : ServiceCommand)
    (reply : ServiceReply) (pause : ServiceExecution → Prop) (first : UInt64)
    (before : ServiceExecution)
    (hsteady : ServiceSteady config began prepared.budget (before.saw (.clock first)))
    (hauthorised : ServiceAuthorised config began prepared.budget
      (before.saw (.clock first)).trace (.run slot command reply)) :
    Ensures (Service.settle config host prepared began slot phase reply)
      (Ran config prepared began slot before) pause
      ((before.saw (.clock first)).saw (.run slot command reply)) := by
  have hmutations : ∀ result : ServiceResult,
      ServiceExecution.mutations
          { (before.saw (.clock first)).saw (.run slot command reply) with result } =
        before.mutations ∨
      slot ≠ .status ∧
        ServiceExecution.mutations
            { (before.saw (.clock first)).saw (.run slot command reply) with result } =
          before.mutations ++ [slot] := by
    intro result
    change ((before.saw (.clock first)).saw (.run slot command reply)).mutations = _ ∨ _ ∧
      ((before.saw (.clock first)).saw (.run slot command reply)).mutations = _
    rw [mutations_saw, mutations_saw, mutates_run]
    by_cases hslot : slot = .status
    · left
      simp [hslot, ServiceEvent.mutates]
    · right
      simp [hslot, ServiceEvent.mutates]
  have hrefused : reply.exitedZero = false → ∀ result : ServiceResult,
      result.changed = before.result.changed → Ran config prepared began slot before none
        { (before.saw (.clock first)).saw (.run slot command reply) with result } := by
    intro hexited result hchanged
    refine ⟨hsteady.act hauthorised ?_, hmutations result, by simp⟩
    rw [hchanged, ServiceEvent.changes, hexited, Bool.and_false, Bool.or_false]
    rfl
  unfold Service.settle
  split
  · rename_i hcode
    exact hrefused (by simp [ServiceReply.exitedZero, hcode]) _ rfl
  rename_i hcode
  split
  · rename_i hstate
    exact hrefused (by simp [ServiceReply.exitedZero, hstate]) _ rfl
  split
  · rename_i hstate
    exact hrefused (by simp [ServiceReply.exitedZero, hstate]) _ rfl
  split
  · rename_i hstate
    exact hrefused (by simp [ServiceReply.exitedZero, hstate]) _ rfl
  split
  · rename_i hfailed
    have hexited : reply.exitedZero = false := by
      simp only [ServiceReply.exitedZero, decide_eq_false_iff_not, not_and]
      intro _ hstate hexit
      exact hfailed.elim (absurd hstate) (absurd hexit)
    rw [ensures_bind, ensures_modifyGet]
    exact hrefused hexited _ rfl
  · rename_i hexit
    obtain ⟨hstate, hexit⟩ := not_or.mp hexit
    have hexited : reply.exitedZero = true := by
      simp [ServiceReply.exitedZero, not_not.mp hcode, not_not.mp hstate, not_not.mp hexit]
    rw [ensures_bind, ensures_modifyGet]
    unfold Service.elapsed Service.now
    rw [ensures_bind, ensures_bind, ensures_modifyGet, ensures_pure]
    dsimp only
    generalize host.nowNs _ = second
    generalize hmarked : ({ (before.saw (.clock first)).saw (.run slot command reply) with
      result := { ((before.saw (.clock first)).saw (.run slot command reply)).result with
        changed := ((before.saw (.clock first)).saw (.run slot command reply)).result.changed ||
          decide (slot ≠ .status) } } : ServiceExecution) = marked
    have hmarkedSteady : ServiceSteady config began prepared.budget (marked.saw (.clock second)) := by
      rw [← hmarked]
      apply (hsteady.act hauthorised _).clock second
      rw [ServiceEvent.changes, hexited, Bool.and_true]
      rfl
    have hmarkedMutations : (marked.saw (.clock second)).mutations = before.mutations ∨
        slot ≠ .status ∧ (marked.saw (.clock second)).mutations = before.mutations ++ [slot] := by
      rw [mutations_clock, ← hmarked]
      exact hmutations _
    split
    · exact ⟨hmarkedSteady.retold rfl, hmarkedMutations, by simp⟩
    · rename_i hlate
      split
      · exact ⟨hmarkedSteady.retold rfl, hmarkedMutations, by simp⟩
      · rename_i hbounds
        obtain ⟨hmissing, hsize⟩ := not_or.mp hbounds
        refine ⟨hmarkedSteady, hmarkedMutations, ?_⟩
        rintro good hgood
        obtain rfl := Option.some.inj hgood
        have htrace : marked.trace = before.trace ++ [.clock first] ++ [.run slot command reply] := by
          rw [← hmarked]
          rfl
        refine ⟨hexited, ⟨hmissing, Nat.le_of_not_lt hsize⟩, ?_, ?_, first, command, second, ?_⟩
        · rw [ServiceExecution.saw, ← hmarked]
          rfl
        · rw [ServiceExecution.saw, htrace]
          exact (hauthorised.1.snoc_other rfl).snoc (UInt64.not_le.mp hlate)
        · rw [ServiceExecution.saw, htrace]
          simp

theorem run_ensures (slot : CommandSlot) (phase : String) (pause : ServiceExecution → Prop)
    (before : ServiceExecution) (hsteady : ServiceSteady config began prepared.budget before)
    (htimely : Timely began prepared.budget before.trace)
    (hpermitted : Permitted config before.trace slot) :
    Ensures (Service.run config host prepared began slot phase)
      (Ran config prepared began slot before) pause before := by
  unfold Service.run Service.elapsed Service.now
  rw [ensures_bind, ensures_bind, ensures_modifyGet, ensures_pure]
  dsimp only
  generalize host.nowNs before.trace = first
  have hread := hsteady.clock first
  split
  · exact ⟨hread.retold rfl, .inl (mutations_clock before first), by simp⟩
  · rename_i hlate
    rw [ensures_bind, ensures_modifyGet]
    apply settle_ensures slot phase _ _ pause first before hread
    exact ⟨htimely.snoc (UInt64.not_le.mp hlate), endsRead_snoc _ _, hpermitted.snoc _ rfl⟩

/-! ## Queries and polling -/

variable (config prepared began) in
/-- What a query ends in. -/
structure StateQueried (before : ServiceExecution) (ok : Bool) (after : ServiceExecution) :
    Prop where
  steady : ServiceSteady config began prepared.budget after
  mutations : after.mutations = before.mutations
  live : ok = true → ServiceLive config began prepared.budget after

theorem WentWell.endsRead {slot : CommandSlot} {before after : ServiceExecution}
    {reply : ServiceReply} (hgood : WentWell config prepared began slot before reply after) :
    EndsRead after.trace := by
  obtain ⟨first, command, second, hshape⟩ := hgood.shape
  exact ⟨before.trace ++ [.clock first, .run slot command reply], second, by simp [hshape]⟩

/-- A status command that went well reports what its output says. -/
theorem WentWell.observed {before after : ServiceExecution} {reply : ServiceReply}
    (hgood : WentWell config prepared began .status before reply after) {state : ServiceState}
    (hstate : praktorServiceParseState reply.output.read = some state) :
    StateObserved config after.trace state := by
  obtain ⟨first, command, second, hshape⟩ := hgood.shape
  refine ⟨reply, ?_, ?_⟩
  · have hsplit : after.trace =
        ((before.trace ++ [.clock first]) ++ [.run .status command reply]) ++ [.clock second] := by
      simp [hshape]
    rw [hsplit, latest_snoc, latest_snoc]
    rfl
  · unfold reported
    rw [if_pos ⟨hgood.exited, hgood.bounded⟩, hstate]

/-- A command that starts or stops the service leaves the observed state as it was. -/
theorem WentWell.live {slot : CommandSlot} {before after : ServiceExecution} {reply : ServiceReply}
    (hgood : WentWell config prepared began slot before reply after) (hslot : slot ≠ .status)
    (hlive : ServiceLive config began prepared.budget before) :
    ServiceLive config began prepared.budget after := by
  refine ⟨hgood.timely, hgood.endsRead, ?_⟩
  obtain ⟨first, command, second, hshape⟩ := hgood.shape
  have hsplit : after.trace =
      ((before.trace ++ [.clock first]) ++ [.run slot command reply]) ++ [.clock second] := by
    simp [hshape]
  have hrun : (ServiceEvent.run slot command reply).statusReply = none := by
    cases slot with
    | status => exact absurd rfl hslot
    | start => rfl
    | stop => rfl
  rw [hsplit, hgood.state]
  exact ((hlive.observed.snoc _ rfl).snoc _ hrun).snoc _ rfl

theorem serviceQuery_ensures (phase : String) (pause : ServiceExecution → Prop)
    (before : ServiceExecution) (hsteady : ServiceSteady config began prepared.budget before)
    (htimely : Timely began prepared.budget before.trace) :
    Ensures (Service.query config host prepared began phase)
      (StateQueried config prepared began before) pause before := by
  unfold Service.query
  apply (run_ensures .status phase pause before hsteady htimely trivial).bind
  intro reply after hran
  have hmutations : after.mutations = before.mutations :=
    hran.mutations.elim id fun hslot => absurd rfl hslot.1
  cases reply with
  | none => exact ⟨hran.steady, hmutations, by simp⟩
  | some reply =>
      have hgood := hran.good reply rfl
      dsimp only
      cases hstate : praktorServiceParseState reply.output.read with
      | none => exact ⟨hran.steady.retold rfl, hmutations, by simp⟩
      | some state =>
          exact ⟨hran.steady.retold rfl, hmutations, fun _ =>
            ⟨hgood.timely, hgood.endsRead, hgood.observed hstate⟩⟩

variable (config prepared began) in
/-- Nothing was started or stopped, and a further command may be decided on. -/
structure Kept (before after : ServiceExecution) : Prop where
  steady : ServiceSteady config began prepared.budget after
  live : ServiceLive config began prepared.budget after
  mutations : after.mutations = before.mutations

variable (config prepared began) in
/-- What a poll loop ends in. -/
structure StateReached (target : ServiceState) (before : ServiceExecution) (ok : Bool)
    (after : ServiceExecution) : Prop where
  steady : ServiceSteady config began prepared.budget after
  mutations : after.mutations = before.mutations
  live : ok = true →
    ServiceLive config began prepared.budget after ∧ after.result.state = target

theorem pollRound_ensures (target : ServiceState) (origin before : ServiceExecution)
    (hkept : Kept config prepared began origin before) :
    Ensures (Service.pollRound config request host prepared began target)
      (Round (StateReached config prepared began target origin) (Kept config prepared began origin))
      (Kept config prepared began origin) before := by
  unfold Service.pollRound Service.elapsed Service.now
  rw [ensures_bind, ensures_bind, ensures_modifyGet, ensures_pure]
  dsimp only
  generalize host.nowNs before.trace = reading
  have hread := hkept.steady.clock reading
  have hmutations := (mutations_clock before reading).trans hkept.mutations
  split
  · exact ⟨hread.retold rfl, hmutations, by simp⟩
  · rename_i hlate
    have htimely := hkept.live.timely.snoc (UInt64.not_le.mp hlate)
    rw [ensures_bind, ensures_modifyGet]
    dsimp only
    generalize (min request.pollIntervalMs.toUInt64
      ((prepared.budget - (reading - began) + 999999) / 1000000)).toUInt32 = ms
    have hauthorised : ServiceAuthorised config began prepared.budget
        (before.saw (.clock reading)).trace (.sleep ms) := endsRead_snoc _ _
    have hslept : ServiceSteady config began prepared.budget
        ((before.saw (.clock reading)).saw (.sleep ms)) :=
      hread.act hauthorised (Bool.or_false _).symm
    apply (serviceQuery_ensures "poll" _ _ hslept (htimely.snoc_other rfl)).bind
    intro ok after hqueried
    have hafter : after.mutations = origin.mutations := by
      rw [hqueried.mutations, mutations_saw]
      exact (List.append_nil _).trans hmutations
    cases ok with
    | false => exact ⟨hqueried.steady, hafter, by simp⟩
    | true =>
        rw [if_neg (by simp), ensures_bind, ensures_get]
        split
        · rename_i hstate
          exact ⟨hqueried.steady, hafter, fun _ => ⟨hqueried.live rfl, hstate⟩⟩
        · exact ⟨hqueried.steady, hqueried.live rfl, hafter⟩

theorem pollFor_ensures (rounds : Nat) (target : ServiceState) (before : ServiceExecution)
    (hsteady : ServiceSteady config began prepared.budget before)
    (hlive : ServiceLive config began prepared.budget before) :
    Ensures (Service.pollFor config request host prepared began rounds target)
      (StateReached config prepared began target before) (Kept config prepared began before)
      before :=
  ensures_repeatUntil (Kept config prepared began before)
    (fun _ hkept => pollRound_ensures target before _ hkept) (fun _ hkept => hkept) rounds before
    ⟨hsteady, hlive, rfl⟩

/-! ## Starting and stopping -/

variable (config prepared began) in
/-- What a start or a stop ends in. -/
structure Moved (slot : CommandSlot) (target : ServiceState) (before : ServiceExecution) (ok : Bool)
    (after : ServiceExecution) : Prop where
  steady : ServiceSteady config began prepared.budget after
  mutations : after.mutations = before.mutations ∨ after.mutations = before.mutations ++ [slot]
  live : ok = true →
    ServiceLive config began prepared.budget after ∧ after.result.state = target

variable (config prepared began) in
/-- Where a start or a stop pauses. -/
structure Moving (slot : CommandSlot) (before after : ServiceExecution) : Prop where
  steady : ServiceSteady config began prepared.budget after
  read : EndsRead after.trace
  mutations : after.mutations = before.mutations ∨ after.mutations = before.mutations ++ [slot]

variable {slot : CommandSlot} {target : ServiceState} {before : ServiceExecution}

theorem pollFor_moved (rounds : Nat)
    (hsteady : ServiceSteady config began prepared.budget before)
    (hlive : ServiceLive config began prepared.budget before) :
    Ensures (Service.pollFor config request host prepared began rounds target)
      (Moved config prepared began slot target before) (Moving config prepared began slot before)
      before :=
  (pollFor_ensures rounds target before hsteady hlive).mono
    (fun _ _ hreached => ⟨hreached.steady, .inl hreached.mutations, hreached.live⟩)
    fun _ hkept => ⟨hkept.steady, hkept.live.read, .inl hkept.mutations⟩

/-- A command and the wait for what it is to bring about. -/
theorem command_moved (rounds : Nat) (phase : String) (hslot : slot ≠ .status)
    (hsteady : ServiceSteady config began prepared.budget before)
    (hlive : ServiceLive config began prepared.budget before)
    (hpermitted : Permitted config before.trace slot) :
    Ensures (do
      match ← Service.run config host prepared began slot phase with
      | none => pure false
      | some _ => Service.pollFor config request host prepared began rounds target)
      (Moved config prepared began slot target before) (Moving config prepared began slot before)
      before := by
  apply (run_ensures slot phase _ before hsteady hlive.timely hpermitted).bind
  intro reply after hran
  have hmutations : after.mutations = before.mutations ∨
      after.mutations = before.mutations ++ [slot] := hran.mutations.imp id And.right
  cases reply with
  | none => exact ⟨hran.steady, hmutations, by simp⟩
  | some reply =>
      have hafter := (hran.good reply rfl).live hslot hlive
      refine (pollFor_ensures rounds target after hran.steady hafter).mono ?_ ?_
      · intro ok last hreached
        refine ⟨hreached.steady, ?_, hreached.live⟩
        rwa [hreached.mutations]
      · intro last hkept
        refine ⟨hkept.steady, hkept.live.read, ?_⟩
        rwa [hkept.mutations]

theorem serviceStart_ensures (rounds : Nat)
    (hsteady : ServiceSteady config began prepared.budget before)
    (hlive : ServiceLive config began prepared.budget before) :
    Ensures (Service.start config request host prepared began rounds)
      (Moved config prepared began .start .running before)
      (Moving config prepared began .start before) before := by
  unfold Service.start
  rw [ensures_bind, ensures_get]
  dsimp only
  split
  · rename_i hstate
    exact ⟨hsteady, .inl rfl, fun _ => ⟨hlive, hstate⟩⟩
  split
  · exact ⟨hsteady.retold rfl, .inl rfl, by simp⟩
  split
  · rename_i hstate
    have hpermitted : Permitted config before.trace .start := by
      have hobserved := hlive.observed
      rwa [hstate] at hobserved
    exact command_moved rounds "start" (by decide) hsteady hlive hpermitted
  · exact pollFor_moved rounds hsteady hlive

theorem serviceStop_ensures (rounds : Nat)
    (hsteady : ServiceSteady config began prepared.budget before)
    (hlive : ServiceLive config began prepared.budget before) :
    Ensures (Service.stop config request host prepared began rounds)
      (Moved config prepared began .stop .stopped before)
      (Moving config prepared began .stop before) before := by
  unfold Service.stop
  rw [ensures_bind, ensures_get]
  dsimp only
  split
  · rename_i hstate
    exact ⟨hsteady, .inl rfl, fun _ => ⟨hlive, hstate⟩⟩
  split
  · exact ⟨hsteady.retold rfl, .inl rfl, by simp⟩
  split
  · rename_i hstate
    have hpermitted : Permitted config before.trace .stop := by
      have hobserved := hlive.observed
      rwa [hstate] at hobserved
    exact command_moved rounds "stop" (by decide) hsteady hlive hpermitted
  · exact pollFor_moved rounds hsteady hlive

end Commands

/-! ## Operations -/

/-- The lists of commands that an operation may use to start or stop the service. -/
def allowedMutations : ProcessOperation → List (List CommandSlot)
  | .status => [[]]
  | .start => [[], [.start]]
  | .stop => [[], [.stop]]
  | .restart => [[], [.stop], [.start], [.stop, .start]]

/-- The state that an operation is to bring about. -/
def targetState : ProcessOperation → Option ServiceState
  | .status => none
  | .start | .restart => some .running
  | .stop => some .stopped

section Operations

variable {config : ServiceConfig} {request : ServiceRequest} {host : ServiceHost}
  {prepared : Prepared} {began : UInt64}

variable (config prepared began) in
/-- What an operation ends in. -/
structure OperationDone (operation : ProcessOperation) (ok : Bool) (after : ServiceExecution) :
    Prop where
  steady : ServiceSteady config began prepared.budget after
  mutations : after.mutations ∈ allowedMutations operation
  observed : ok = true → ∀ target ∈ targetState operation, StateObserved config after.trace target

variable (config prepared began) in
/-- Where an operation pauses. -/
structure OperationPaused (operation : ProcessOperation) (after : ServiceExecution) : Prop where
  steady : ServiceSteady config began prepared.budget after
  read : EndsRead after.trace
  mutations : after.mutations ∈ allowedMutations operation

/-- The commands of a restart, by what its stop and its start used. -/
theorem restart_mutations {stopped after : ServiceExecution}
    (hstopped : stopped.mutations = [] ∨ stopped.mutations = [.stop])
    (hstarted : after.mutations = stopped.mutations ∨
      after.mutations = stopped.mutations ++ [.start]) :
    after.mutations ∈ allowedMutations .restart := by
  rcases hstarted with hstarted | hstarted
  · rcases hstopped with hstopped | hstopped
    · simp [hstarted, hstopped, allowedMutations]
    · simp [hstarted, hstopped, allowedMutations]
  · rcases hstopped with hstopped | hstopped
    · simp [hstarted, hstopped, allowedMutations]
    · simp [hstarted, hstopped, allowedMutations]

theorem servicePerform_ensures (rounds : Nat) (operation : ProcessOperation)
    (before : ServiceExecution) (hsteady : ServiceSteady config began prepared.budget before)
    (hlive : ServiceLive config began prepared.budget before) (hnone : before.mutations = []) :
    Ensures (Service.perform config request host prepared began rounds operation)
      (OperationDone config prepared began operation)
      (OperationPaused config prepared began operation) before := by
  cases operation with
  | status => exact ⟨hsteady, by simp [hnone, allowedMutations], by simp [targetState]⟩
  | start =>
      refine (serviceStart_ensures rounds hsteady hlive).mono ?_ ?_
      · rintro ok after ⟨hafter, hmutations, hdone⟩
        refine ⟨hafter, by simpa [hnone, allowedMutations] using hmutations, ?_⟩
        rintro hok target ⟨rfl⟩
        exact (hdone hok).2 ▸ (hdone hok).1.observed
      · rintro after ⟨hafter, hread, hmutations⟩
        exact ⟨hafter, hread, by simpa [hnone, allowedMutations] using hmutations⟩
  | stop =>
      refine (serviceStop_ensures rounds hsteady hlive).mono ?_ ?_
      · rintro ok after ⟨hafter, hmutations, hdone⟩
        refine ⟨hafter, by simpa [hnone, allowedMutations] using hmutations, ?_⟩
        rintro hok target ⟨rfl⟩
        exact (hdone hok).2 ▸ (hdone hok).1.observed
      · rintro after ⟨hafter, hread, hmutations⟩
        exact ⟨hafter, hread, by simpa [hnone, allowedMutations] using hmutations⟩
  | restart =>
      unfold Service.perform
      have hup : Ensures (do
          if (← get).result.state = .startPending then
            Service.pollFor config request host prepared began rounds .running
          else
            pure true)
          (fun ok after => ServiceSteady config began prepared.budget after ∧ after.mutations = [] ∧
            (ok = true → ServiceLive config began prepared.budget after))
          (OperationPaused config prepared began .restart) before := by
        rw [ensures_bind, ensures_get]
        split
        · refine (pollFor_ensures rounds .running before hsteady hlive).mono ?_ ?_
          · rintro ok after ⟨hafter, hmutations, hdone⟩
            exact ⟨hafter, hmutations.trans hnone, fun hok => (hdone hok).1⟩
          · rintro after ⟨hafter, hliveAfter, hmutations⟩
            exact ⟨hafter, hliveAfter.read, by simp [hmutations, hnone, allowedMutations]⟩
        · exact ⟨hsteady, hnone, fun _ => hlive⟩
      have hrest : ∀ up settled, (ServiceSteady config began prepared.budget settled ∧
          settled.mutations = [] ∧ (up = true → ServiceLive config began prepared.budget settled)) →
          Ensures (do
            if !up then
              pure false
            else if !(← Service.stop config request host prepared began rounds) then
              pure false
            else
              Service.start config request host prepared began rounds)
            (OperationDone config prepared began .restart)
            (OperationPaused config prepared began .restart) settled := by
        rintro up settled ⟨hsettled, hempty, hlived⟩
        cases up with
        | false => exact ⟨hsettled, by simp [hempty, allowedMutations], by simp⟩
        | true =>
            rw [if_neg (by simp)]
            refine ((serviceStop_ensures rounds hsettled (hlived rfl)).mono (fun _ _ hmoved => hmoved)
              ?_).bind ?_
            · rintro after ⟨hafter, hread, hmutations⟩
              refine ⟨hafter, hread, ?_⟩
              rcases hmutations with hmutations | hmutations
              · simp [hmutations, hempty, allowedMutations]
              · simp [hmutations, hempty, allowedMutations]
            · rintro ok stopped ⟨hstopped, hmutations, hdone⟩
              have hstoppedMutations : stopped.mutations = [] ∨ stopped.mutations = [.stop] := by
                simpa [hempty] using hmutations
              cases ok with
              | false =>
                  refine ⟨hstopped, ?_, by simp⟩
                  rcases hstoppedMutations with hlist | hlist
                  · simp [hlist, allowedMutations]
                  · simp [hlist, allowedMutations]
              | true =>
                  rw [if_neg (by simp)]
                  refine (serviceStart_ensures rounds hstopped (hdone rfl).1).mono ?_ ?_
                  · rintro ok after ⟨hafter, hstarted, hup⟩
                    refine ⟨hafter, restart_mutations hstoppedMutations hstarted, ?_⟩
                    rintro hok target ⟨rfl⟩
                    exact (hup hok).2 ▸ (hup hok).1.observed
                  · rintro after ⟨hafter, hread, hstarted⟩
                    exact ⟨hafter, hread, restart_mutations hstoppedMutations hstarted⟩
      exact hup.bind hrest

end Operations

/-! ## Executions -/

section Execution

variable {config : ServiceConfig} {request : ServiceRequest} {host : ServiceHost} {began budget : UInt64}

/-- A command is followed by a reading, and by no other command when that reading is late. -/
theorem command_followed {trace : List ServiceEvent}
    (hauthorised : Justified (ServiceAuthorised config began budget) trace) (hread : EndsRead trace)
    {before after : List ServiceEvent} {slot : CommandSlot} {command : ServiceCommand}
    {reply : ServiceReply} (hsplit : trace = before ++ .run slot command reply :: after) :
    ∃ reading rest, after = .clock reading :: rest ∧
      (budget ≤ reading - began → ∀ event ∈ rest, event.isRun = false) := by
  have hends : ∀ reading earlier, before ++ [.run slot command reply] ≠ earlier ++ [.clock reading] := by
    intro reading earlier hequal
    have hlast := congrArg List.getLast? hequal
    simp at hlast
  cases after with
  | nil =>
      obtain ⟨earlier, reading, htrace⟩ := hread
      exact absurd (hsplit.symm.trans htrace) (hends reading earlier)
  | cons next rest =>
      have hnext := hauthorised (before ++ [.run slot command reply]) next rest (by simp [hsplit])
      cases next with
      | sleep ms =>
          obtain ⟨earlier, reading, hequal⟩ := hnext
          exact absurd hequal (hends reading earlier)
      | run other later answer =>
          obtain ⟨earlier, reading, hequal⟩ := hnext.2.1
          exact absurd hequal (hends reading earlier)
      | clock reading =>
          refine ⟨reading, rest, rfl, fun hlate event hevent => ?_⟩
          obtain ⟨between, tail, rfl⟩ := List.append_of_mem hevent
          cases event with
          | clock _ => rfl
          | sleep _ => rfl
          | run other later answer =>
              have hlater := hauthorised (before ++ .run slot command reply :: .clock reading :: between)
                (.run other later answer) tail (by simp [hsplit])
              have htimely := hlater.1 reading (by simp)
              exact absurd hlate (UInt64.not_le.mpr htimely)

/-- Between a stop and a start after it a status command reported that the service stopped. -/
theorem stopped_between {trace : List ServiceEvent}
    (hauthorised : Justified (ServiceAuthorised config began budget) trace)
    {before between after : List ServiceEvent} {stopCommand startCommand : ServiceCommand}
    {stopReply startReply : ServiceReply}
    (hsplit : trace = before ++ .run .stop stopCommand stopReply ::
      (between ++ .run .start startCommand startReply :: after)) :
    ∃ command reply, .run .status command reply ∈ between ∧ reported config reply = some .stopped := by
  have hstop := hauthorised _ _ _ hsplit
  have hstart := hauthorised (before ++ .run .stop stopCommand stopReply :: between)
    (.run .start startCommand startReply) after (by simp [hsplit])
  obtain ⟨running, hrunning, hreportedRunning⟩ := hstop.2.2
  obtain ⟨stopped, hstopped, hreportedStopped⟩ := hstart.2.2
  have hlist : before ++ .run .stop stopCommand stopReply :: between =
      (before ++ [.run .stop stopCommand stopReply]) ++ between := by simp
  rw [hlist, latest_append, latest_snoc] at hstopped
  cases hbetween : latest ServiceEvent.statusReply between with
  | none =>
      rw [hbetween, Option.none_or] at hstopped
      have hsame : running = stopped := Option.some.inj (hrunning.symm.trans hstopped)
      rw [hsame, hreportedStopped] at hreportedRunning
      exact absurd hreportedRunning (by decide)
  | some reply =>
      rw [hbetween, Option.some_or] at hstopped
      obtain rfl := Option.some.inj hstopped
      obtain ⟨earlier, event, later, rfl, hevent, -⟩ := latest_split hbetween
      cases event with
      | clock _ => simp [ServiceEvent.statusReply] at hevent
      | sleep _ => simp [ServiceEvent.statusReply] at hevent
      | run slot command answer =>
          cases slot with
          | status =>
              obtain rfl : answer = reply := Option.some.inj hevent
              exact ⟨command, answer, by simp, hreportedStopped⟩
          | start => simp [ServiceEvent.statusReply] at hevent
          | stop => simp [ServiceEvent.statusReply] at hevent

variable (config request) in
/-- What holds of an execution with its code, if it returned, and of its trace. -/
structure ServiceSafe (began : UInt64) (code : Option Salts) (last : ServiceExecution) : Prop where
  /-- A request that is refused runs no command. -/
  refused : ∀ refusal, prepare config request = .error refusal →
    ∀ event ∈ last.trace, event.isRun = false
  /-- Every command is justified by the calls before it. -/
  authorised : Justified
    (ServiceAuthorised config began (request.timeoutMs.toUInt64 * 1000000)) last.trace
  /-- A command is followed by a reading, and by no other command when that reading is late. -/
  followed : ∀ before slot command reply after,
    last.trace = before ++ .run slot command reply :: after →
      ∃ reading rest, after = .clock reading :: rest ∧
        (request.timeoutMs.toUInt64 * 1000000 ≤ reading - began →
          ∀ event ∈ rest, event.isRun = false)
  /-- The commands that start or stop the service, in their order. -/
  mutations : ∀ operation, request.operation = some operation →
    last.mutations ∈ allowedMutations operation
  /-- Between a stop and a start after it the service was seen to be stopped. -/
  between : ∀ before stopCommand stopReply between startCommand startReply after,
    last.trace = before ++ .run .stop stopCommand stopReply ::
      (between ++ .run .start startCommand startReply :: after) →
      ∃ command reply, .run .status command reply ∈ between ∧
        reported config reply = some .stopped
  changed_iff : last.result.changed = true ↔ ∃ event ∈ last.trace, event.changes = true
  /-- What went well was seen to be brought about. -/
  observed : code = some .ok → last.result.ok = true →
    ∀ operation, request.operation = some operation →
      ∀ target ∈ targetState operation, StateObserved config last.trace target

variable (config request) in
/-- What an execution has done when it pauses or is about to read the clock for the last
time. -/
structure ServiceConcluded (began : UInt64) (ok : Bool) (after : ServiceExecution) : Prop where
  refused : ∀ refusal, prepare config request = .error refusal →
    ∀ event ∈ after.trace, event.isRun = false
  steady : ServiceSteady config began (request.timeoutMs.toUInt64 * 1000000) after
  mutations : ∀ operation, request.operation = some operation →
    after.mutations ∈ allowedMutations operation
  observed : ok = true → ∀ operation, request.operation = some operation →
    ∀ target ∈ targetState operation, StateObserved config after.trace target

/-- A trace that ends with a reading has no command that is not followed. -/
theorem ServiceConcluded.safe {ok : Bool} {after : ServiceExecution}
    (hconcluded : ServiceConcluded config request began ok after) (hread : EndsRead after.trace)
    (code : Option Salts) (hcode : code = some .ok → after.result.ok = true → ok = true) :
    ServiceSafe config request began code after := by
  refine ⟨hconcluded.refused, hconcluded.steady.authorised, ?_, hconcluded.mutations, ?_,
    hconcluded.steady.changed_iff, ?_⟩
  · intro before slot command reply rest hsplit
    exact command_followed hconcluded.steady.authorised hread hsplit
  · intro before stopCommand stopReply between startCommand startReply rest hsplit
    exact stopped_between hconcluded.steady.authorised hsplit
  · intro hok hresult
    exact hconcluded.observed (hcode hok hresult)

/-- The last reading of an execution. -/
theorem ServiceConcluded.read {ok : Bool} {after : ServiceExecution}
    (hconcluded : ServiceConcluded config request began ok after) (ended durationMs : UInt64) :
    ServiceConcluded config request began ok
      { result := { after.result with ok, durationMs }, trace := after.trace ++ [.clock ended] } := by
  refine ⟨fun refusal hrefusal event hevent => ?_, (hconcluded.steady.clock ended).retold rfl,
    fun operation hoperation => ?_, fun hok operation hoperation target htarget => ?_⟩
  · rcases List.mem_append.mp hevent with hearlier | hlast
    · exact hconcluded.refused refusal hrefusal event hearlier
    · obtain rfl := List.mem_singleton.mp hlast
      rfl
  · exact (mutations_clock after ended).symm ▸ hconcluded.mutations operation hoperation
  · exact (hconcluded.observed hok operation hoperation target htarget).snoc _ rfl

/-- A time that is positive and has 31 bits is positive in nanoseconds. -/
theorem nanoseconds_pos {ms : Int64} (hpos : 0 < ms) (hle : ms ≤ 2147483647) :
    0 < ms.toUInt64 * 1000000 := by
  rw [Int64.lt_iff_toInt_lt] at hpos
  rw [Int64.le_iff_toInt_le] at hle
  have hzero : (0 : Int64).toInt = 0 := by decide
  have hmax : (2147483647 : Int64).toInt = 2147483647 := by decide
  have hvalue : ms.toInt = if 2 * ms.toUInt64.toNat < 18446744073709551616
      then (ms.toUInt64.toNat : Int) else (ms.toUInt64.toNat : Int) - 18446744073709551616 :=
    BitVec.toInt_eq_toNat_cond ms.toBitVec
  have hbound := ms.toUInt64.toNat_lt
  have hhalf : 2 * ms.toUInt64.toNat < 18446744073709551616 := by
    by_contra hlarge
    rw [if_neg hlarge] at hvalue
    omega
  rw [if_pos hhalf] at hvalue
  have hfactor : (1000000 : UInt64).toNat = 1000000 := by decide
  rw [UInt64.lt_iff_toNat_lt, UInt64.toNat_mul, hfactor, Nat.mod_eq_of_lt (by omega)]
  change 0 < _
  omega

/-- The budget of a prepared request. -/
theorem budget_of_prepare {prepared : Prepared} (hprepare : prepare config request = .ok prepared) :
    prepared.budget = request.timeoutMs.toUInt64 * 1000000 := by
  unfold prepare at hprepare
  split at hprepare
  · simp at hprepare
  split at hprepare
  · simp at hprepare
  · simp at hprepare
  split at hprepare
  · simp at hprepare
  · cases hprepare
    rfl

/-- A request that was prepared is well formed. -/
theorem wellFormed_of_prepare {prepared : Prepared}
    (hprepare : prepare config request = .ok prepared) : wellFormed config request = true := by
  unfold prepare at hprepare
  split at hprepare
  · simp at hprepare
  · rename_i hformed
    simpa using hformed

/-- A well-formed request asks for an operation and leaves time for it. -/
theorem operation_of_wellFormed (hformed : wellFormed config request = true) :
    (∃ operation, request.operation = some operation) ∧
      0 < request.timeoutMs.toUInt64 * 1000000 := by
  unfold wellFormed at hformed
  simp only [Bool.and_eq_true, decide_eq_true_eq] at hformed
  obtain ⟨⟨⟨⟨⟨⟨⟨⟨hoperation, -⟩, -⟩, hpos⟩, hle⟩, -⟩, -⟩, -⟩, -⟩ := hformed
  exact ⟨Option.isSome_iff_exists.mp hoperation, nanoseconds_pos hpos hle⟩

theorem serviceSteady_start : ServiceSteady config began budget {} := by
  refine ⟨justified_nil, ?_⟩
  simp

theorem allowedMutations_nil (operation : ProcessOperation) : [] ∈ allowedMutations operation := by
  cases operation with
  | status => simp [allowedMutations]
  | start => simp [allowedMutations]
  | stop => simp [allowedMutations]
  | restart => simp [allowedMutations]

/-- What an execution does between its first and its last reading. -/
theorem serviceBody_ensures (rounds : Nat) (began : UInt64) :
    Ensures (do
      match prepare config request with
      | .error refusal => Service.fail false refusal.error refusal.phase refusal.message false
      | .ok prepared =>
          if !(← Service.query config host prepared began "query") then
            pure false
          else
            match request.operation with
            | none => pure false
            | some operation =>
                Service.perform config request host prepared began rounds operation)
      (ServiceConcluded config request began)
      (fun paused => ServiceConcluded config request began false paused ∧ EndsRead paused.trace)
      (ServiceExecution.saw {} (.clock began)) := by
  have hsteady : ∀ budget, ServiceSteady config began budget
      (ServiceExecution.saw {} (.clock began)) :=
    fun _ => serviceSteady_start.clock began
  have hruns : ∀ event ∈ (ServiceExecution.saw {} (.clock began)).trace, event.isRun = false := by
    intro event hevent
    obtain rfl : event = .clock began := by simpa [ServiceExecution.saw] using hevent
    rfl
  have hempty : (ServiceExecution.saw {} (.clock began)).mutations = [] := rfl
  cases hprepare : prepare config request with
  | error refusal =>
      refine ⟨fun _ _ => hruns, (hsteady _).retold rfl, fun operation _ => ?_, by simp⟩
      exact hempty ▸ allowedMutations_nil operation
  | ok prepared =>
      have hbudget := budget_of_prepare hprepare
      obtain ⟨⟨operation, hoperation⟩, hpositive⟩ :=
        operation_of_wellFormed (wellFormed_of_prepare hprepare)
      have hrefused : ∀ refusal, prepare config request ≠ .error refusal := by simp [hprepare]
      have htimely : Timely began prepared.budget (ServiceExecution.saw {} (.clock began)).trace := by
        intro reading hreading
        obtain rfl : reading = began := by simpa [ServiceExecution.saw] using hreading
        rw [UInt64.sub_self, hbudget]
        exact hpositive
      dsimp only
      apply (serviceQuery_ensures "query" _ _ (hsteady _) htimely).bind
      intro ok after hqueried
      have hmutations : after.mutations = [] := hqueried.mutations.trans hempty
      cases ok with
      | false =>
          refine ⟨fun refusal hrefusal => absurd hrefusal (hrefused refusal),
            hbudget ▸ hqueried.steady, fun operation _ => ?_, by simp⟩
          exact hmutations ▸ allowedMutations_nil operation
      | true =>
          rw [if_neg (by simp), hoperation]
          refine (servicePerform_ensures rounds operation after hqueried.steady (hqueried.live rfl)
            hmutations).mono ?_ ?_
          · intro ok last hdone
            refine ⟨fun refusal hrefusal => absurd hrefusal (hrefused refusal),
              hbudget ▸ hdone.steady, ?_, ?_⟩
            · intro other hother
              obtain rfl := Option.some.inj (hoperation.symm.trans hother)
              exact hdone.mutations
            · intro hok other hother
              obtain rfl := Option.some.inj (hoperation.symm.trans hother)
              exact hdone.observed hok
          · intro last hpaused
            refine ⟨⟨fun refusal hrefusal => absurd hrefusal (hrefused refusal),
              hbudget ▸ hpaused.steady, ?_, by simp⟩, hpaused.read⟩
            intro other hother
            obtain rfl := Option.some.inj (hoperation.symm.trans hother)
            exact hpaused.mutations

theorem serviceExecute_ensures (rounds : Nat) :
    Ensures (Service.execute config request host rounds)
      (fun _ => ServiceSafe config request (host.nowNs []) (some .ok))
      (ServiceSafe config request (host.nowNs []) none) {} := by
  unfold Service.execute Service.now
  rw [ensures_bind, ensures_modifyGet]
  change Ensures _ _ _ (ServiceExecution.saw {} (.clock (host.nowNs [])))
  generalize host.nowNs [] = began
  dsimp only
  refine ((serviceBody_ensures rounds began).mono (fun _ _ hconcluded => hconcluded) ?_).bind ?_
  · rintro paused ⟨hconcluded, hread⟩
    exact hconcluded.safe hread none (by simp)
  · intro ok after hconcluded
    unfold Service.elapsed Service.now
    rw [ensures_bind, ensures_modifyGet, ensures_bind, ensures_bind, ensures_modifyGet, ensures_pure,
      ensures_modifyGet]
    dsimp only
    generalize host.nowNs _ = ended
    exact (hconcluded.read ended ((ended - began) / 1000000)).safe (endsRead_snoc _ _) _ fun _ hok => hok

end Execution

/-- Every execution of `praktor_service_control_execute` dispatches only justified commands,
and its result tells what they came to. -/
theorem praktorServiceControlExecute_safe (control : ServiceControl) (request : ServiceRequest)
    (host : ServiceHost) (rounds : Nat) :
    ServiceSafe control.config request (host.nowNs [])
      (praktorServiceControlExecute control request host rounds).1
      (praktorServiceControlExecute control request host rounds).2 := by
  unfold praktorServiceControlExecute
  split
  · refine ⟨by simp, justified_nil, by simp, fun operation _ => allowedMutations_nil operation,
      by simp, by simp, by simp⟩
  · have hexecute : Ensures (Service.execute control.config request host rounds)
        (fun _ => ServiceSafe control.config request (host.nowNs []) (some .ok))
        (ServiceSafe control.config request (host.nowNs []) none) {} := serviceExecute_ensures rounds
    unfold Ensures at hexecute
    generalize outcome (Service.execute control.config request host rounds) {} = reached at hexecute ⊢
    obtain ⟨result, last⟩ := reached
    cases result with
    | some done => exact hexecute
    | none => exact hexecute

end Praktor.Process
