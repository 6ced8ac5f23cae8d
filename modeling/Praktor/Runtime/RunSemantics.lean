/-
# What a workflow run does

Between two turns of the loop the four pieces of its state agree: a task is pending
in the DAG state and in the registry, or it is finished there and successful here, and
no transaction is open on the root store.  A turn either keeps this agreement and adds
one successful task, or it leaves the loop.  The statements about whole runs follow by
induction over the turns.
-/

import Praktor.Runtime.Execution

namespace Praktor.Runtime

open Praktor.Data Praktor.Math Praktor.Values Praktor.Workflow Praktor.Workflow.DagState

/-! ## A claim of the single driver -/

section Claim

variable {graph : Dependencies} {dag : DagState}

/-- What the driver learns from a claim: everything is finished, or one task is ready
and reserved for it. -/
inductive ClaimOutcome (graph : Dependencies) (dag : DagState) : DagState × Salts × List Nat → Prop
  | done (next : DagState) (hfinished : ∀ row ∈ dag.tasks, row.phase = .finished) :
      ClaimOutcome graph dag (next, .ok, [])
  | reserved (index : Nat) (row : DagTaskEntry) (next : DagState)
      (hrow : dag.tasks[index]? = some row) (hpending : row.phase = .pending)
      (hready : row.remaining = 0) (hconsistent : Consistent graph 1 next)
      (hterminal : next.terminal = .continuing) (hactive : next.active = 1)
      (hphases : ∀ task, (phases next.tasks)[task]? =
        if task = index then some .reserved else (phases dag.tasks)[task]?) :
      ClaimOutcome graph dag (next, .ok, [index])

theorem claimReady_outcome (haccepted : graph.Accepted) (hconsistent : Consistent graph 1 dag)
    (hterminal : dag.terminal = .continuing) (hidle : dag.active = 0) :
    ClaimOutcome graph dag (dag.claimReady 1) := by
  have hmax := hconsistent.maxActive_eq
  have hscan := claimScan_spec 1 dag.tasks 0 0 (Nat.zero_le _)
  have hclaim : dag.claimReady 1 = ({ dag with
      tasks := (claimScan 1 0 0 dag.tasks).1
      active := dag.active + (claimScan 1 0 0 dag.tasks).2.length }, .ok,
      (claimScan 1 0 0 dag.tasks).2) := by
    simp [claimReady, hterminal, hidle, hmax]
  generalize claimScan 1 0 0 dag.tasks = scanned at hscan hclaim
  rw [hclaim]
  have hnext := hconsistent.preserved
    (.claimed 1 1 scanned hterminal (by omega) hscan)
  cases hclaimed : scanned.2 with
  | nil =>
      refine .done _ fun row hrow => ?_
      have hcomplete : graph.taskCount ≤ dag.completed := by
        by_contra hunfinished
        have hadmits := hconsistent.claimReady_admits haccepted (Nat.le_refl 1) hterminal hidle
          (Nat.lt_of_not_le hunfinished) (Nat.le_refl 1)
        exact hadmits.2 (by rw [hclaim, hclaimed])
      have hcount : (phases dag.tasks).count .finished = (phases dag.tasks).length := by
        have hle := List.count_le_length (a := DagTaskPhase.finished) (l := phases dag.tasks)
        have hcompleted := hconsistent.completed_eq
        have hlength := hconsistent.length_eq
        simp only [countPhase] at hcompleted
        simp only [phases, List.length_map] at hle hcompleted ⊢
        omega
      exact (List.count_eq_length.mp hcount _ (List.mem_map_of_mem hrow)).symm
  | cons index rest =>
      have hbounded := hscan.bounded
      rw [hclaimed, List.length_cons] at hbounded
      obtain rfl : rest = [] := List.length_eq_zero_iff.mp (by omega)
      have hmem : index ∈ scanned.2 := by simp [hclaimed]
      obtain ⟨row, hrow, hpending, hready⟩ := hscan.pending hmem
      rw [hclaimed] at hnext
      refine .reserved index row _ hrow hpending hready hnext hterminal (by simp [hidle]) ?_
      intro task
      rw [hscan.getElem?_phases task, hclaimed]
      simp

/-- Nothing blocks a task whose counter is zero. -/
theorem predecessor_finished (hconsistent : Consistent graph 1 dag)
    (hterminal : dag.terminal = .continuing) {index : Nat} {row : DagTaskEntry}
    (hrow : dag.tasks[index]? = some row) (hready : row.remaining = 0) {predecessor : Nat}
    (hedge : (predecessor, index) ∈ graph.pairs) : isFinished dag.tasks predecessor = true := by
  have hopen := hconsistent.remaining_eq hterminal index row hrow
  rw [hready] at hopen
  exact Multigraph.openInto_eq_zero_iff.mp hopen.symm _ hedge rfl

/-- A successful settlement of the reserved task. -/
theorem finish_reserved (hlinked : graph.Linked) (hconsistent : Consistent graph 1 dag)
    (hterminal : dag.terminal = .continuing) (hactive : dag.active = 1) {index : Nat}
    (hphase : (phases dag.tasks)[index]? = some .reserved) :
    Consistent graph 1 (dag.finish index true).1 ∧
      (dag.finish index true).1.terminal = .continuing ∧
      (dag.finish index true).1.active = 0 ∧
      ∀ task, (phases (dag.finish index true).1.tasks)[task]? =
        if task = index then some .finished else (phases dag.tasks)[task]? := by
  rw [DagState.getElem?_phases, Option.map_eq_some_iff] at hphase
  obtain ⟨row, hrow, hreserved⟩ := hphase
  have hretired := hconsistent.retireEdges_settled hlinked hterminal hrow hreserved
  rw [← hconsistent.graph_eq] at hretired
  have hfinish : (dag.finish index true).1 = { dag with
      tasks := retire index dag.graph.pairs (dag.tasks.set index { row with phase := .finished })
      active := dag.active - 1
      completed := dag.completed + 1 } := by
    simp [finish, hrow, hreserved, hterminal, hretired]
  obtain ⟨hlt, _⟩ := List.getElem?_eq_some_iff.mp hrow
  rw [hfinish]
  refine ⟨hconsistent.preserved (.succeeded index row hrow hreserved hterminal), hterminal,
    by simp [hactive], fun task => ?_⟩
  rw [phases_retire, phases_set]
  by_cases htask : task = index
  · subst htask
    simp [phases, hlt]
  · simp [htask, List.getElem?_set_ne (Ne.symm htask)]

end Claim

/-! ## Agreement between two turns -/

/-- The DAG state and the registry say the same about a task. -/
def Agree (phase : Option DagTaskPhase) (slot : TaskSlot) : Prop :=
  (phase = some .pending ∧ slot.state = .pending ∧ slot.revision = 0) ∨
    (phase = some .finished ∧ slot.state = .success)

/-- The state of a run of `snapshot` between two turns. -/
structure Ongoing (snapshot : WorkflowSnapshot) (state : RuntimeState) : Prop where
  snapshot_eq : state.owner.snapshot = snapshot
  status_eq : state.status = .ok
  consistent : Consistent snapshot.graph 1 state.owner.dag
  terminal_eq : state.owner.dag.terminal = .continuing
  active_eq : state.owner.dag.active = 0
  count_eq : state.owner.registry.count = snapshot.taskCount
  agree : ∀ (index : Nat) (slot : TaskSlot), state.owner.registry.slots[index]? = some slot →
    Agree (phases state.owner.dag.tasks)[index]? slot
  quiet : ∀ id, state.owner.world.txns id = none
  root : ∃ store, state.owner.world.stores rootStore = some store

/-- The copy of the reason a task failed for can be allocated. -/
def TurnInput.reasonKept (input : TurnInput) : Bool := input.reasonSchedule.alloc.1.isSome

/-- The ports of a task that passed: every one of them is in the scope its session left,
and the writes are their values there. -/
def Ports (snapshot : WorkflowSnapshot) (index : Nat) (input : TurnInput) (root : ValueStore)
    (writes : List (CString × Option CString)) : Prop :=
  ∃ task loaded setKey, snapshot.tasks[index]? = some task ∧ setup task root input = .ok loaded ∧
    (input.session loaded).passed = true ∧ taskSetKey task = .ok setKey ∧
    (∀ key ∈ portKeys setKey, ((input.session loaded).scope.findEntry key).isSome = true) ∧
    writes = portWrites (input.session loaded).scope (portKeys setKey)

/-- What a turn that claimed a task did to a run that was ongoing. -/
inductive TaskOutcome (snapshot : WorkflowSnapshot) (before : RuntimeState) (index : Nat)
    (input : TurnInput) : RuntimeState × TurnReply → Prop
  | aborted (after : RuntimeState) (hphase : after.phase = .aborted)
      (hsnapshot : after.owner.snapshot = snapshot)
      (hworld : after.owner.world = before.owner.world)
      (hregistry : before.owner.registry.ChangedAt after.owner.registry index
        fun slot => slot.state ≠ .success) :
      TaskOutcome snapshot before index input (after, ⟨some index, true, none⟩)
  | failed (after : RuntimeState) (hphase : after.phase = .marshalled)
      (hstatus : after.status ≠ .ok) (hsnapshot : after.owner.snapshot = snapshot)
      (hworld : after.owner.world = before.owner.world)
      (hregistry : before.owner.registry.ChangedAt after.owner.registry index fun slot =>
        slot.state = if input.reasonKept then .failed else .running) :
      TaskOutcome snapshot before index input (after, ⟨some index, true, none⟩)
  | succeeded (after : RuntimeState) (writes : List (CString × Option CString))
      (root next : ValueStore) (hphase : after.phase = .looping)
      (hongoing : Ongoing snapshot after)
      (hregistry : before.owner.registry.ChangedAt after.owner.registry index
        fun slot => slot.state = .success)
      (hports : Ports snapshot index input root writes)
      (hroot : before.owner.world.stores rootStore = some root)
      (hstores : after.owner.world.stores =
        Function.update before.owner.world.stores rootStore (some next))
      (hnext : next.findEntry = overlay root.findEntry writes) :
      TaskOutcome snapshot before index input (after, ⟨some index, true, some writes⟩)

/-- What a turn did to a run that was ongoing. -/
inductive TurnOutcome (snapshot : WorkflowSnapshot) (before : RuntimeState) (input : TurnInput) :
    RuntimeState × TurnReply → Prop
  | interrupted (after : RuntimeState) (hphase : after.phase = .marshalled)
      (hstatus : after.status ≠ .ok) (hsnapshot : after.owner.snapshot = snapshot)
      (hregistry : after.owner.registry = before.owner.registry)
      (hworld : after.owner.world = before.owner.world) :
      TurnOutcome snapshot before input (after, .nothing)
  | exhausted (after : RuntimeState) (hphase : after.phase = .marshalled)
      (hsnapshot : after.owner.snapshot = snapshot)
      (hregistry : after.owner.registry = before.owner.registry)
      (hworld : after.owner.world = before.owner.world)
      (hsuccess : ∀ slot ∈ before.owner.registry.slots, slot.state = .success) :
      TurnOutcome snapshot before input (after, .nothing)
  | claimed (index : Nat) (slot : TaskSlot) (hcancelled : input.cancelled = false)
      (hexpired : input.expired = false)
      (hslot : before.owner.registry.slots[index]? = some slot) (hpending : slot.state = .pending)
      (hdependencies : ∀ predecessor, (predecessor, index) ∈ snapshot.graph.pairs →
        ∃ slot, before.owner.registry.slots[predecessor]? = some slot ∧ slot.state = .success)
      {result : RuntimeState × TurnReply}
      (houtcome : TaskOutcome snapshot before index input result) :
      TurnOutcome snapshot before input result

/-! ## One task -/

/-- What is known at `task_done` about a task that was pending. -/
structure ReachedSpec (owner : RuntimeOwner) (index : Nat) (task : SnapshotTask)
    (root : ValueStore) (input : TurnInput) (reached : TaskReached) : Prop where
  started_eq : reached.started = true
  registry : owner.registry.ChangedAt reached.registry index (TaskRegistry.RunningWithin 1)
  driven : ∀ driver, reached.driver = some driver →
    ∃ loaded, setup task root input = .ok loaded ∧ driver = input.session loaded
  passed : ∀ driver, reached.driver = some driver → driver.passed = true →
    reached.dag = owner.dag ∧ reached.status = .ok

theorem reachTask_spec {owner : RuntimeOwner} {index : Nat} {slot : TaskSlot}
    (hslot : owner.registry.slots[index]? = some slot) (hrevision : slot.revision = 0)
    (task : SnapshotTask) (root : ValueStore) (input : TurnInput) :
    ReachedSpec owner index task root input (reachTask owner .ok task root index input) := by
  obtain ⟨hstarted, hregistry⟩ := TaskRegistry.start_pending hslot hrevision
  simp only [reachTask, hstarted, ne_eq, not_true_eq_false, if_false]
  split
  · exact ⟨rfl, hregistry, by simp, by simp⟩
  rename_i loaded hloaded
  have hdriven : ∀ driver, some (input.session loaded) = some driver →
      ∃ loaded, setup task root input = .ok loaded ∧ driver = input.session loaded :=
    fun driver hdriver => ⟨loaded, hloaded, (Option.some.inj hdriver).symm⟩
  split_ifs with _ _ hcancelled hexpired hpassed
  · exact ⟨rfl, hregistry, by simp, by simp⟩
  · exact ⟨rfl, hregistry, by simp, by simp⟩
  · refine ⟨rfl, hregistry, hdriven, ?_⟩
    rintro _ ⟨rfl⟩ hpassed
    simp [DriverResult.passed, hcancelled] at hpassed
  · refine ⟨rfl, hregistry, hdriven, ?_⟩
    rintro _ ⟨rfl⟩ hpassed
    simp [DriverResult.passed, hexpired] at hpassed
  · refine ⟨rfl, hregistry, hdriven, ?_⟩
    rintro _ ⟨rfl⟩ htrue
    simp [htrue] at hpassed
  · exact ⟨rfl, hregistry, hdriven, fun _ _ _ => ⟨rfl, rfl⟩⟩

theorem taskSetKey_ne (task : SnapshotTask) : taskSetKey task ≠ .error .ok := by
  rw [taskSetKey]
  split_ifs
  · simp
  rw [nativeSetKey]
  split
  · split
    · simp [Except.map]
    split_ifs
    · simp [Except.map]
    split <;> simp [Except.map]
  · simp [Except.map]

section Publish

variable {library : JsonLibrary} {registry : TaskRegistry} {world : World} {root : ValueStore}
  {index : Nat} {slot : TaskSlot}

/-- A failure exit leaves a running task running. -/
theorem publishFailureExit_running (hslot : registry.slots[index]? = some slot)
    (hrunning : TaskRegistry.RunningWithin 1 slot) (scope : ValueStore)
    (schedule : AllocSchedule) :
    registry.ChangedAt (publishFailureExit library registry index scope schedule) index
      (TaskRegistry.RunningWithin 2) := by
  have hkept : registry.ChangedAt registry index (TaskRegistry.RunningWithin 2) :=
    .refl hslot ⟨hrunning.1, Nat.le_succ_of_le hrunning.2⟩
  rw [publishFailureExit]
  split
  · exact hkept
  split
  · exact hkept
  · exact TaskRegistry.setOutput_running hslot hrunning (by decide) _ _ _

/-- The publication of a task: both stores or none. -/
theorem publishTask_spec (hquiet : ∀ id, world.txns id = none)
    (hroot : world.stores rootStore = some root) (hslot : registry.slots[index]? = some slot)
    (hrunning : TaskRegistry.RunningWithin 1 slot) (task : SnapshotTask) (driver : DriverResult)
    (input : TurnInput) {result : PublishResult}
    (hresult : publishTask library registry world task index driver input = result) :
    registry.ChangedAt result.registry index (TaskRegistry.RunningWithin 2) ∧
    (driver.passed = true → result.status = .ok → ∃ setKey next,
      taskSetKey task = .ok setKey ∧
      (∀ key ∈ portKeys setKey, (driver.scope.findEntry key).isSome = true) ∧
      result.world.stores = Function.update world.stores rootStore (some next) ∧
      (∀ id, result.world.txns id = none) ∧
      next.findEntry =
        overlay root.findEntry (portWrites driver.scope (portKeys setKey))) ∧
    (driver.passed = false ∨ result.status ≠ .ok → result.world = world) := by
  have hkept : registry.ChangedAt registry index (TaskRegistry.RunningWithin 2) :=
    .refl hslot ⟨hrunning.1, Nat.le_succ_of_le hrunning.2⟩
  rw [publishTask] at hresult
  cases hpassed : driver.passed with
  | false =>
      simp only [hpassed, Bool.false_eq_true, if_false] at hresult
      split_ifs at hresult
      · subst hresult
        exact ⟨publishFailureExit_running hslot hrunning _ _, by simp, fun _ => rfl⟩
      · subst hresult
        exact ⟨hkept, by simp, fun _ => rfl⟩
  | true =>
      simp only [hpassed, if_true] at hresult
      cases hkey : taskSetKey task with
      | error status =>
          simp only [hkey] at hresult
          subst hresult
          have hne : status ≠ .ok := fun heq => taskSetKey_ne task (heq ▸ hkey)
          exact ⟨hkept, fun _ h => absurd h hne, fun _ => rfl⟩
      | ok setKey =>
          simp only [hkey] at hresult
          obtain ⟨hpublished, hunchanged⟩ :=
            publishSuccess_spec hquiet hroot index driver.scope setKey input.publish hresult
          by_cases hok : result.status = .ok
          · obtain ⟨hfound, next, typed, hnext, hmerged, hstores, htxns⟩ := hpublished hok
            exact ⟨hmerged.running hslot hrunning, fun _ _ => ⟨setKey, next, rfl, hfound, hstores,
              htxns, hnext⟩, by simp [hok]⟩
          · obtain ⟨hregistry, hworld⟩ := hunchanged hok
            exact ⟨hregistry ▸ hkept, fun _ h => absurd h hok, fun _ => hworld⟩

end Publish

theorem failureText_length : failureText.length ≤ maxReasonBytes := by decide

theorem failureText_nulFree : 0 ∉ failureText := by decide

/-! ## One turn -/

section Turn

variable {library : JsonLibrary} {snapshot : WorkflowSnapshot}

/-- Settling a task that did not pass or failed to publish leaves the loop. -/
theorem settleTask_failed (owner : RuntimeOwner) {index : Nat} {slot : TaskSlot}
    (hslot : owner.registry.slots[index]? = some slot)
    (hrunning : TaskRegistry.RunningWithin 2 slot) (status : RuntimeStatus) (passed failed : Bool)
    (hfailed : (!passed || failed) = true) (input : TurnInput) :
    (settleTask owner index status passed failed input).phase = .marshalled ∧
      (settleTask owner index status passed failed input).status ≠ .ok ∧
      (settleTask owner index status passed failed input).owner.snapshot = owner.snapshot ∧
      (settleTask owner index status passed failed input).owner.world = owner.world ∧
      owner.registry.ChangedAt
        (settleTask owner index status passed failed input).owner.registry index fun slot =>
          slot.state = if input.reasonKept then .failed else .running := by
  simp only [settleTask, hfailed, if_true, true_and]
  refine ⟨?_, (TaskRegistry.fail_running hslot hrunning (by decide) failureText_length
    failureText_nulFree _).mono fun slot hstate => ?_⟩
  rotate_left
  · rw [hstate, TurnInput.reasonKept]
    cases input.reasonSchedule.alloc.1 <;> rfl
  cases failed with
  | true => simp
  | false =>
      simp only [Bool.false_eq_true, if_false]
      split_ifs with hok
      · simp
      · exact hok

/-- Settling a task that passed and was published goes on with the loop. -/
theorem settleTask_passed (owner : RuntimeOwner) (index : Nat) (input : TurnInput) :
    settleTask owner index .ok true false input =
      ⟨{ owner with
          registry := (owner.registry.complete index).1
          dag := (owner.dag.finish index true).1 }, .ok, .looping⟩ := by
  simp [settleTask]

/-- The state in which a task has been claimed. -/
structure Claimed (snapshot : WorkflowSnapshot) (before : RuntimeState) (index : Nat)
    (owner : RuntimeOwner) : Prop where
  snapshot_eq : owner.snapshot = snapshot
  registry_eq : owner.registry = before.owner.registry
  world_eq : owner.world = before.owner.world
  consistent : Consistent snapshot.graph 1 owner.dag
  terminal_eq : owner.dag.terminal = .continuing
  active_eq : owner.dag.active = 1
  phases_eq : ∀ task, (phases owner.dag.tasks)[task]? =
    if task = index then some .reserved else (phases before.owner.dag.tasks)[task]?

/-- A claimed task that was published is settled as successful. -/
theorem Claimed.ongoing {before : RuntimeState} {index : Nat} {owner : RuntimeOwner}
    (hongoing : Ongoing snapshot before) (hclaimed : Claimed snapshot before index owner)
    {registry : TaskRegistry} {world : World} {next : ValueStore}
    (hregistry : before.owner.registry.ChangedAt registry index (TaskRegistry.RunningWithin 2))
    (hstores : world.stores = Function.update before.owner.world.stores rootStore (some next))
    (hquiet : ∀ id, world.txns id = none) :
    before.owner.registry.ChangedAt (registry.complete index).1 index
        (fun slot => slot.state = .success) ∧
      Ongoing snapshot ⟨⟨owner.snapshot, (registry.complete index).1,
        (owner.dag.finish index true).1, world⟩, .ok, .looping⟩ := by
  obtain ⟨slot, hslot, hrunning⟩ := hregistry.here
  have hcomplete := hregistry.trans (TaskRegistry.complete_running hslot hrunning (by decide))
  have hreserved : (phases owner.dag.tasks)[index]? = some .reserved := by
    simp [hclaimed.phases_eq]
  obtain ⟨hconsistent, hterminal, hactive, hphases⟩ := finish_reserved snapshot.accepted.linked
    hclaimed.consistent hclaimed.terminal_eq hclaimed.active_eq hreserved
  refine ⟨hcomplete, hclaimed.snapshot_eq, rfl, hconsistent, hterminal, hactive,
    hcomplete.count_eq.trans hongoing.count_eq, fun task found hfound => ?_, hquiet,
    next, by simp [hstores]⟩
  show Agree (phases (owner.dag.finish index true).1.tasks)[task]? found
  rw [hphases task]
  by_cases htask : task = index
  · subst htask
    obtain ⟨done, hdone, hsuccess⟩ := hcomplete.here
    obtain rfl : done = found := by simpa [hdone] using hfound
    exact .inr ⟨by simp, hsuccess⟩
  · rw [if_neg htask, hclaimed.phases_eq, if_neg htask]
    exact hongoing.agree task found ((hcomplete.others task htask).symm.trans hfound)

/-- What happens to a claimed task. -/
theorem Claimed.outcome {before : RuntimeState} {index : Nat} {owner : RuntimeOwner}
    (hongoing : Ongoing snapshot before) (hclaimed : Claimed snapshot before index owner)
    {slot : TaskSlot} (hslot : before.owner.registry.slots[index]? = some slot)
    (hrevision : slot.revision = 0) {task : SnapshotTask}
    (htask : snapshot.tasks[index]? = some task) {root : ValueStore}
    (hroot : before.owner.world.stores rootStore = some root) (input : TurnInput) :
    TaskOutcome snapshot before index input
      (finishTask library owner task index (reachTask owner .ok task root index input) input) := by
  have hreached := reachTask_spec (hclaimed.registry_eq ▸ hslot) hrevision task
    root input
  generalize reachTask owner .ok task root index input = reached at hreached ⊢
  have hstarted := hreached.registry
  rw [hclaimed.registry_eq] at hstarted
  obtain ⟨running, hrunningSlot, hrunning⟩ := hstarted.here
  rw [finishTask, hreached.started_eq]
  simp only
  split_ifs with habort
  · refine .aborted _ rfl hclaimed.snapshot_eq hclaimed.world_eq (hstarted.mono ?_)
    exact fun slot hslot => by simp [hslot.1]
  cases hdriver : reached.driver with
  | none =>
      obtain ⟨hphase, hstatus, hsnapshot, hworld, hfailed⟩ := settleTask_failed
        { owner with registry := reached.registry, dag := reached.dag } hrunningSlot
        ⟨hrunning.1, Nat.le_succ_of_le hrunning.2⟩ reached.status false reached.failed rfl input
      exact .failed _ hphase hstatus (hsnapshot.trans hclaimed.snapshot_eq)
        (hworld.trans hclaimed.world_eq) (hstarted.trans hfailed)
  | some driver =>
      simp only
      generalize hresult : publishTask library reached.registry owner.world task index driver input
        = result
      obtain ⟨hregistry, hpublished, hunchanged⟩ := publishTask_spec
        (hclaimed.world_eq ▸ hongoing.quiet) (hclaimed.world_eq ▸ hroot) hrunningSlot hrunning task
        driver input hresult
      obtain ⟨shown, hshown, hstill⟩ := hregistry.here
      by_cases hsuccess : driver.passed = true ∧ result.status = .ok
      · obtain ⟨hpassed, hok⟩ := hsuccess
        obtain ⟨hdag, hstatus⟩ := hreached.passed driver hdriver hpassed
        obtain ⟨setKey, next, hkey, hfound, hstores, hquiet, hnext⟩ := hpublished hpassed hok
        rw [hclaimed.world_eq] at hstores
        obtain ⟨hchanged, hnextOngoing⟩ := hclaimed.ongoing hongoing (hstarted.trans hregistry)
          hstores hquiet
        simp only [hpassed, hok, hstatus, hdag, ne_eq, not_true_eq_false, decide_false,
          settleTask_passed, Bool.true_and, decide_true, if_true, taskWrites, hkey]
        obtain ⟨loaded, hloaded, rfl⟩ := hreached.driven driver hdriver
        exact .succeeded _ _ root next rfl hnextOngoing hchanged
          ⟨task, loaded, setKey, htask, hloaded, hpassed, hkey, hfound, rfl⟩ hroot hstores hnext
      · have hlost : driver.passed = false ∨ result.status ≠ .ok := by
          rwa [not_and_or, Bool.not_eq_true] at hsuccess
        have hworld := (hunchanged hlost).trans hclaimed.world_eq
        obtain ⟨hphase, hstatus, hsnapshot, hsame, hfailed⟩ := settleTask_failed
          ⟨owner.snapshot, result.registry, reached.dag, result.world⟩ hshown hstill reached.status
          driver.passed (decide (result.status ≠ .ok)) (by simpa using hlost) input
        have hreply : (driver.passed && decide (result.status = .ok)) = false := by
          simpa [← not_and_or] using hsuccess
        rw [hreply]
        exact .failed _ hphase hstatus (hsnapshot.trans hclaimed.snapshot_eq)
          (hsame.trans hworld) ((hstarted.trans hregistry).trans hfailed)

/-- A task is finished in the DAG state exactly when it is successful in the registry. -/
theorem Ongoing.success_of_finished {before : RuntimeState} (hongoing : Ongoing snapshot before)
    {index : Nat} {slot : TaskSlot} (hslot : before.owner.registry.slots[index]? = some slot)
    (hfinished : (phases before.owner.dag.tasks)[index]? = some .finished) :
    slot.state = .success := by
  rcases hongoing.agree index slot hslot with ⟨hpending, _, _⟩ | ⟨_, hsuccess⟩
  · simp [hpending] at hfinished
  · exact hsuccess

/-- Every entry of the DAG state has a slot in the registry. -/
theorem Ongoing.exists_slot {before : RuntimeState} (hongoing : Ongoing snapshot before)
    {index : Nat} {phase : DagTaskPhase}
    (hphase : (phases before.owner.dag.tasks)[index]? = some phase) :
    ∃ slot, before.owner.registry.slots[index]? = some slot := by
  obtain ⟨hlt, _⟩ := List.getElem?_eq_some_iff.mp hphase
  have hcount : before.owner.registry.slots.length = snapshot.taskCount := hongoing.count_eq
  rw [phases, List.length_map, hongoing.consistent.length_eq, snapshot.graph_taskCount,
    ← hcount] at hlt
  exact ⟨_, List.getElem?_eq_getElem hlt⟩

/-- A turn of an ongoing run has one of the listed outcomes. -/
theorem Ongoing.turn {before : RuntimeState} (hongoing : Ongoing snapshot before)
    (hphase : before.phase = .looping) (library : JsonLibrary) (input : TurnInput) :
    TurnOutcome snapshot before input (before.step library input) := by
  rw [RuntimeState.step]
  simp only [hphase, ne_eq, not_true_eq_false, if_false]
  split
  · exact .interrupted _ rfl (by simp [RuntimeState.interrupt]) hongoing.snapshot_eq rfl rfl
  rename_i hcancelled
  split
  · exact .interrupted _ rfl (by simp [RuntimeState.interrupt]) hongoing.snapshot_eq rfl rfl
  rename_i hexpired
  have hclaim := claimReady_outcome snapshot.accepted hongoing.consistent hongoing.terminal_eq
    hongoing.active_eq
  generalize before.owner.dag.claimReady 1 = claim at hclaim ⊢
  cases hclaim with
  | done next hfinished =>
      simp only [and_self, or_true, if_true]
      refine .exhausted _ rfl hongoing.snapshot_eq rfl rfl fun slot hslot => ?_
      obtain ⟨index, hindex⟩ := List.getElem?_of_mem hslot
      rcases hongoing.agree index slot hindex with ⟨hpending, _, _⟩ | ⟨_, hsuccess⟩
      · obtain ⟨row, hrow, hphase⟩ := Option.map_eq_some_iff.mp
          ((DagState.getElem?_phases _ _).symm.trans hpending)
        simp [hfinished row (List.mem_of_getElem? hrow)] at hphase
      · exact hsuccess
  | reserved index row next hrow hpending hready hconsistent hterminal hactive hphases =>
      have hphase : (phases before.owner.dag.tasks)[index]? = some .pending := by
        rw [DagState.getElem?_phases, hrow, Option.map_some, hpending]
      obtain ⟨slot, hslot⟩ := hongoing.exists_slot hphase
      obtain ⟨hstate, hrevision⟩ : slot.state = .pending ∧ slot.revision = 0 := by
        rcases hongoing.agree index slot hslot with ⟨_, hagree⟩ | ⟨hfinished, _⟩
        · exact hagree
        · simp [hphase] at hfinished
      obtain ⟨task, htask⟩ : ∃ task, snapshot.tasks[index]? = some task := by
        obtain ⟨hlt, _⟩ := List.getElem?_eq_some_iff.mp hslot
        exact ⟨_, List.getElem?_eq_getElem (Nat.lt_of_lt_of_eq hlt hongoing.count_eq)⟩
      obtain ⟨root, hroot⟩ := hongoing.root
      have hclaimed : Claimed snapshot before index
          ⟨snapshot, before.owner.registry, next, before.owner.world⟩ :=
        ⟨rfl, rfl, rfl, hconsistent, hterminal, hactive, hphases⟩
      simp only [reduceCtorEq, List.cons_ne_nil, and_false, or_self, if_false,
        hongoing.snapshot_eq, htask, hroot, hongoing.status_eq]
      refine .claimed index slot (by simpa using hcancelled) (by simpa using hexpired) hslot hstate
        (fun predecessor hedge => ?_)
        (hclaimed.outcome hongoing hslot hrevision htask hroot input)
      have hfinished := predecessor_finished hongoing.consistent hongoing.terminal_eq hrow hready
        hedge
      rw [isFinished, decide_eq_true_eq] at hfinished
      obtain ⟨found, hfound⟩ := hongoing.exists_slot hfinished
      exact ⟨found, hfound, hongoing.success_of_finished hfound hfinished⟩

end Turn

end Praktor.Runtime
