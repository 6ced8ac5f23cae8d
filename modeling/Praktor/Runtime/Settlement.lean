/-
# Settling a cohort

The owner of a workflow ends a parallel cohort with one call that walks five objects: the
readiness counter, the task registry, the value stores with the branch transactions, the
executor and the recovery gate.  There is no rollback, so the five agree afterwards only if
the checks in front exclude every failure of the loops behind them.

An entry of each array of the cohort makes up one branch; the arrays have a common length.
A transaction handle whose `impl` is null is one the world has no transaction for.
-/

import Praktor.Runtime.CohortGate
import Praktor.Workflow.DagSafety

namespace Praktor.Runtime

open Praktor.Data Praktor.Math Praktor.Values Praktor.Workflow

/-- `praktor_c11_workflow_owner_settle_mode`, with the numbers outside the enumeration. -/
inductive SettleMode
  | publish
  | abortFailed
  | abortCancelled
  | unknown (code : Int)
  deriving DecidableEq, Repr

/-- One entry of each array of a cohort. -/
structure OwnerBranch where
  taskIndex : Nat
  output : TaskOutputUpdate
  values : Nat
  succeeded : Bool
  cancelledBeforeRun : Bool
  retainer : RetainerRef

/-- `praktor_c11_workflow_owner_cohort`.  `hasRecovery` says that there is a cohort with a
gate, `given` that none of the other pointers is null apart from the two arrays that only
one mode reads. -/
structure OwnerCohort where
  hasRecovery : Bool
  given : Bool
  branches : List OwnerBranch
  hasTaskOutputs : Bool
  hasCancelledBeforeRun : Bool

/-- The objects a settlement changes. -/
structure OwnerState where
  dag : DagState
  registry : TaskRegistry
  world : World
  gate : CohortGate

/-- The arguments of a settlement and what comes from outside. -/
structure SettleTurn where
  mode : SettleMode
  maxSteps : Nat
  executor : ExecutorView
  replies : Nat × Nat → RetainerReply
  schedule : AllocSchedule

/-- What a settlement leaves behind; `drained` is the drain turn of an abort that came to
one. -/
structure SettleResult where
  state : OwnerState
  status : ParallelStatus
  pending : Nat
  drained : Option DrainResult

namespace OwnerCohort

/-- The `task_indices` array. -/
def taskIndices (cohort : OwnerCohort) : List Nat := cohort.branches.map OwnerBranch.taskIndex

/-- The `branch_values` array. -/
def branchValues (cohort : OwnerCohort) : List Nat := cohort.branches.map OwnerBranch.values

/-- The `retainers` array. -/
def retainers (cohort : OwnerCohort) : Option (List RetainerRef) :=
  some (cohort.branches.map OwnerBranch.retainer)

end OwnerCohort

namespace OwnerState

/-! ## The checks in front -/

/-- The checks of a mode on the terminal reason and its own array. -/
def admitsMode (state : OwnerState) (cohort : OwnerCohort) : SettleMode → Bool
  | .publish => state.dag.terminal = .continuing && cohort.hasTaskOutputs
  | .abortFailed => state.dag.terminal = .continuing || state.dag.terminal = .failed
  | .abortCancelled => state.dag.terminal = .cancelled && cohort.hasCancelledBeforeRun
  | .unknown _ => false

/-- The task of a branch may be settled. -/
def nonterminal (registry : TaskRegistry) (index : Nat) : Bool :=
  match registry.state index with
  | .ok state => state = .pending || state = .running
  | .error _ => false

/-- The checks on one branch, apart from the search for a repeated index. -/
def admitsBranch (state : OwnerState) (mode : SettleMode) (branch : OwnerBranch) : Bool :=
  branch.taskIndex < state.dag.getStats.taskCount &&
    (match state.dag.isReserved branch.taskIndex with
      | .ok reserved => reserved
      | .error _ => false) &&
    nonterminal state.registry branch.taskIndex &&
    (mode ≠ .publish ||
      (state.world.txns branch.values).isSome && branch.output.taskIndex = branch.taskIndex)

/-- `preflight_cohort`; every check that fails answers `INVALID`. -/
def preflightCohort (state : OwnerState) (cohort : OwnerCohort) (mode : SettleMode)
    (maxSteps : Nat) : Bool :=
  cohort.hasRecovery && cohort.given && cohort.branches.length ≠ 0 &&
    !(cohort.branches.length > maxRetainers) && maxSteps ≠ 0 &&
    state.gate.marker ≠ 0 && !state.gate.isSealed &&
    state.dag.getStats.taskCount = state.registry.count &&
    !(cohort.branches.length > state.dag.getStats.taskCount) &&
    state.admitsMode cohort mode && cohort.branches.all (state.admitsBranch mode) &&
    decide cohort.taskIndices.Nodup

/-! ## The loops behind them -/

/-- A loop over the branches that ends at the first failure; a body reports whether it went
through. -/
def forBranches
    (body : OwnerBranch → OwnerState × AllocSchedule → (OwnerState × AllocSchedule) × Bool) :
    List OwnerBranch → OwnerState × AllocSchedule → OwnerState × Bool
  | [], current => (current.1, true)
  | branch :: rest, current =>
      match body branch current with
      | (next, true) => forBranches body rest next
      | (next, false) => (next.1, false)

/-- Close the admission of new tasks. -/
def stopFailed (state : OwnerState) : OwnerState :=
  { state with dag := (state.dag.stop .failed).1 }

/-- Complete the task of a published branch. -/
def completeBranch (branch : OwnerBranch) :
    OwnerState × AllocSchedule → (OwnerState × AllocSchedule) × Bool
  | (state, schedule) =>
      match state.registry.complete branch.taskIndex with
      | (registry, .ok) =>
          match state.dag.finish branch.taskIndex true with
          | (dag, .ok) => (({ state with registry := registry, dag := dag }, schedule), true)
          | (dag, _) =>
              ((stopFailed { state with registry := registry, dag := dag }, schedule), false)
      | (registry, _) => ((stopFailed { state with registry := registry }, schedule), false)

/-- The reason of a task that is aborted. -/
def abortReason (mode : SettleMode) : Bytes :=
  if mode = .abortCancelled then ascii "Process cohort cancelled" else ascii "Process cohort failed"

/-- Settle the task of an aborted branch. -/
def abortBranch (mode : SettleMode) (branch : OwnerBranch) :
    OwnerState × AllocSchedule → (OwnerState × AllocSchedule) × Bool
  | (state, schedule) =>
      if mode = .abortCancelled ∧ branch.cancelledBeforeRun = true then
        match state.dag.refuse branch.taskIndex with
        | (dag, .ok) => (({ state with dag := dag }, schedule), true)
        | (dag, _) => (({ state with dag := dag }, schedule), false)
      else
        match state.registry.fail branch.taskIndex (abortReason mode) schedule with
        | (registry, .ok, schedule) =>
            match state.dag.finish branch.taskIndex false with
            | (dag, .ok) => (({ state with registry := registry, dag := dag }, schedule), true)
            | (dag, _) => (({ state with registry := registry, dag := dag }, schedule), false)
        | (registry, _, schedule) => (({ state with registry := registry }, schedule), false)

/-! ## The settlement -/

/-- The commit turn of a cohort. -/
def commitTurn (state : OwnerState) (cohort : OwnerCohort) (turn : SettleTurn) : CommitTurn where
  given := true
  registry := state.registry
  world := state.world
  branches := cohort.branches.map fun branch => (branch.output, branch.values)
  succeeded := fun index => (cohort.branches[index]?.map OwnerBranch.succeeded).getD false
  owners := cohort.retainers
  maxSteps := turn.maxSteps
  executor := turn.executor
  replies := turn.replies
  schedule := turn.schedule

/-- Publish the outputs of a cohort and complete its tasks. -/
def settlePublish (library : JsonLibrary) (state : OwnerState) (cohort : OwnerCohort)
    (turn : SettleTurn) : SettleResult :=
  let commit := commitAfterCflowAndProcessDrains library state.gate (state.commitTurn cohort turn)
  let committed := { state with
    registry := commit.registry, world := commit.world, gate := commit.gate }
  if commit.status ≠ .ok then
    ⟨if commit.status = .invariant then stopFailed committed else committed, commit.status,
      commit.pending, none⟩
  else
    match forBranches completeBranch cohort.branches (committed, turn.schedule) with
    | (settled, true) => ⟨settled, .ok, commit.pending, none⟩
    | (settled, false) => ⟨settled, .invariant, commit.pending, none⟩

/-- Abort the transactions and settle the tasks of a cohort whose retainers were drained. -/
def settleAborted (state : OwnerState) (cohort : OwnerCohort) (turn : SettleTurn)
    (drained : DrainResult) : SettleResult :=
  let aborted := { state with world := cohort.branchValues.foldl World.txnAbort state.world }
  match forBranches (abortBranch turn.mode) cohort.branches (aborted, turn.schedule) with
  | (settled, false) => ⟨settled, .invariant, drained.pending, some drained⟩
  | (settled, true) =>
      ⟨{ settled with gate := { settled.gate with isSealed := true } },
        if drained.status = .recovery then .recovery else .ok, drained.pending, some drained⟩

/-- Drain the retainers of a cohort that is aborted. -/
def drainAborted (state : OwnerState) (cohort : OwnerCohort) (turn : SettleTurn) : SettleResult :=
  let drained := drainProcessRetainers state.gate cohort.retainers turn.maxSteps turn.replies
  let swept := { state with gate := drained.gate }
  if drained.status = .invalid then ⟨swept, .invalid, drained.pending, some drained⟩
  else if drained.pending = sizeMax then ⟨swept, .invalid, drained.pending, some drained⟩
  else if drained.pending ≠ 0 then
    ⟨swept, if drained.status = .recovery then .recovery else .busy, drained.pending,
      some drained⟩
  else swept.settleAborted cohort turn drained

/-- The count reported before anything is observed. -/
def reported (state : OwnerState) (cohort : OwnerCohort) : Nat :=
  if cohort.hasRecovery ∧ state.gate.marker ≠ 0 then state.gate.lastPending else sizeMax

/-- Abort a cohort once its callbacks have settled. -/
def settleAbort (state : OwnerState) (cohort : OwnerCohort) (turn : SettleTurn) : SettleResult :=
  let seen := turn.executor
  let stop := fun status => SettleResult.mk state status (state.reported cohort) none
  if !seen.hasStats then stop .invalid
  else if seen.accepted ≠ cohort.branches.length || seen.rejectedFull ≠ 0 ||
      seen.rejectedClosed ≠ 0 || seen.rejectedWouldBlock ≠ 0 then stop .invalid
  else if !seen.closed || seen.running ≠ 0 || seen.queued ≠ 0 || seen.completed > seen.accepted ||
      seen.cancelled > seen.accepted - seen.completed ||
      seen.completed + seen.cancelled ≠ seen.accepted then stop .busy
  else
    match seen.waited with
    | .pending => stop .busy
    | .wouldBlock => stop .busy
    | .refused => stop .invalid
    | .idle =>
        if turn.mode = .abortFailed then
          if seen.cancelled ≠ 0 then stop .cancelled
          else
            match state.dag.stop .failed with
            | (dag, .ok) => ({ state with dag := dag } : OwnerState).drainAborted cohort turn
            | (dag, _) => ⟨{ state with dag := dag }, .invariant, state.reported cohort, none⟩
        else if cohort.branches.countP OwnerBranch.cancelledBeforeRun ≠ seen.cancelled then
          stop .invalid
        else state.drainAborted cohort turn

/-- `praktor_c11_workflow_owner_settle_cohort`. -/
def settleCohort (library : JsonLibrary) (state : OwnerState) (cohort : OwnerCohort)
    (turn : SettleTurn) : SettleResult :=
  if !state.preflightCohort cohort turn.mode turn.maxSteps then ⟨state, .invalid, state.reported cohort, none⟩
  else if turn.mode = .publish then state.settlePublish library cohort turn
  else state.settleAbort cohort turn

/-! ## What the checks grant -/

/-- What a cohort that passed the checks looks like. -/
structure Preflight (state : OwnerState) (cohort : OwnerCohort) (mode : SettleMode) : Prop where
  unsealed : state.gate.isSealed = false
  admitted : state.admitsMode cohort mode = true
  reserved : ∀ branch ∈ cohort.branches, ∃ row,
    state.dag.tasks[branch.taskIndex]? = some row ∧ row.phase = .reserved
  nonterminal : ∀ branch ∈ cohort.branches, ∃ slot,
    state.registry.slots[branch.taskIndex]? = some slot ∧ slot.state.finalized = false
  published : mode = .publish → ∀ branch ∈ cohort.branches,
    branch.output.taskIndex = branch.taskIndex
  nodup : cohort.taskIndices.Nodup

theorem nonterminal_iff {registry : TaskRegistry} {index : Nat} :
    nonterminal registry index = true ↔
      ∃ slot, registry.slots[index]? = some slot ∧ slot.state.finalized = false := by
  rw [nonterminal, TaskRegistry.state]
  cases registry.slots[index]? with
  | none => simp
  | some slot => cases hstate : slot.state <;> simp [hstate, TaskState.finalized]

theorem preflight_of_check {state : OwnerState} {cohort : OwnerCohort} {mode : SettleMode}
    {maxSteps : Nat} (hcheck : state.preflightCohort cohort mode maxSteps = true) :
    Preflight state cohort mode := by
  simp only [preflightCohort, Bool.and_eq_true, decide_eq_true_eq, Bool.not_eq_true',
    List.all_eq_true, admitsBranch, Bool.or_eq_true] at hcheck
  obtain ⟨⟨⟨⟨⟨⟨_, hunsealed⟩, _⟩, _⟩, hmode⟩, hbranches⟩, hnodup⟩ := hcheck
  refine ⟨hunsealed, hmode, fun branch hbranch => ?_, fun branch hbranch => ?_,
    fun hpublish branch hbranch => ?_, hnodup⟩
  · obtain ⟨⟨⟨_, hreserved⟩, _⟩, _⟩ := hbranches branch hbranch
    rw [DagState.isReserved] at hreserved
    cases hrow : state.dag.tasks[branch.taskIndex]? with
    | none => simp [hrow] at hreserved
    | some row => exact ⟨row, rfl, by simpa [hrow] using hreserved⟩
  · obtain ⟨⟨_, hstate⟩, _⟩ := hbranches branch hbranch
    exact nonterminal_iff.mp hstate
  · obtain ⟨_, hvalues⟩ := hbranches branch hbranch
    exact (hvalues.resolve_left (not_not.mpr hpublish)).2

/-! ## What the loops do -/

/-- No allocation call fails. -/
def Plentiful (schedule : AllocSchedule) : Prop := none ∉ schedule

theorem Plentiful.alloc {schedule : AllocSchedule} (hplentiful : Plentiful schedule) :
    ∃ address rest, schedule.alloc = (some address, rest) ∧ Plentiful rest :=
  AllocSchedule.alloc_of_not_mem hplentiful

section Loops

variable {graph : Dependencies} {maxActive : Nat} {mode : SettleMode}

/-- The phase in which a branch leaves its task. -/
def settledPhase (mode : SettleMode) (branch : OwnerBranch) : DagTaskPhase :=
  if mode = .abortCancelled ∧ branch.cancelledBeforeRun = true then .refused else .finished

/-- The slot of a task that was aborted. -/
def abortedSlot (mode : SettleMode) (slot : TaskSlot) : TaskSlot :=
  { slot with reason := some (abortReason mode), state := .failed, revision := slot.revision + 1 }

/-- The slot in which a loop leaves the task of a branch. -/
def settledSlot (mode : SettleMode) (branch : OwnerBranch) (slot : TaskSlot) : TaskSlot :=
  if mode = .publish then { slot with state := .success, revision := slot.revision + 1 }
  else if mode = .abortCancelled ∧ branch.cancelledBeforeRun = true then slot
  else abortedSlot mode slot

/-- The terminal reason while a mode settles its tasks. -/
def settledTerminal : SettleMode → DagTerminal
  | .abortFailed => .failed
  | .abortCancelled => .cancelled
  | _ => .continuing

/-- A branch that a loop can settle. -/
structure Settleable (state : OwnerState) (branch : OwnerBranch) : Prop where
  reserved : ∃ row, state.dag.tasks[branch.taskIndex]? = some row ∧ row.phase = .reserved
  opened : ∃ slot, state.registry.slots[branch.taskIndex]? = some slot ∧ slot.closed = false

/-- One branch has been settled. -/
structure BranchSettled (graph : Dependencies) (maxActive : Nat) (mode : SettleMode)
    (branch : OwnerBranch) (before after : OwnerState) : Prop where
  dag : DagState.Settles graph maxActive before.dag branch.taskIndex (settledPhase mode branch)
    before.dag.terminal after.dag
  slots_eq : after.registry.slots =
    before.registry.slots.modify branch.taskIndex (settledSlot mode branch)
  world_eq : after.world = before.world
  gate_eq : after.gate = before.gate

/-- Replacing an element by a function of itself. -/
theorem set_eq_modify {α : Type} {items : List α} {index : Nat} {item : α} (change : α → α)
    (hitem : items[index]? = some item) : items.set index (change item) = items.modify index change := by
  rw [List.modify_eq_set_getElem?, hitem]
  rfl

theorem abortReason_kept (mode : SettleMode) :
    (decide ((abortReason mode).length > maxReasonBytes) || decide (0 ∈ abortReason mode)) =
      false := by
  rw [abortReason]
  split <;> decide

/-- Failing an open task does not fail when there is memory. -/
theorem fail_open {registry : TaskRegistry} {index : Nat} {slot : TaskSlot}
    (hslot : registry.slots[index]? = some slot) (hopen : slot.closed = false)
    (mode : SettleMode) {schedule : AllocSchedule} (hplentiful : Plentiful schedule) :
    ∃ rest, Plentiful rest ∧ registry.fail index (abortReason mode) schedule =
      (registry.withSlot index (abortedSlot mode slot), .ok, rest) := by
  obtain ⟨address, rest, halloc, hrest⟩ := hplentiful.alloc
  refine ⟨rest, hrest, ?_⟩
  simp only [TaskRegistry.fail, hslot, hopen, abortReason_kept, halloc, Bool.false_eq_true,
    if_false, abortedSlot]

/-- The tasks of several branches have been settled, and nothing else. -/
structure CohortSettled (graph : Dependencies) (maxActive : Nat) (mode : SettleMode)
    (branches : List OwnerBranch) (before after : OwnerState) : Prop where
  consistent : DagState.Consistent graph maxActive after.dag
  terminal_eq : after.dag.terminal = before.dag.terminal
  phase_eq : ∀ branch ∈ branches,
    (DagState.phases after.dag.tasks)[branch.taskIndex]? = some (settledPhase mode branch)
  slot_eq : ∀ branch ∈ branches, after.registry.slots[branch.taskIndex]? =
    before.registry.slots[branch.taskIndex]?.map (settledSlot mode branch)
  others : ∀ index ∉ branches.map OwnerBranch.taskIndex,
    (DagState.phases after.dag.tasks)[index]? = (DagState.phases before.dag.tasks)[index]? ∧
      after.registry.slots[index]? = before.registry.slots[index]?
  world_eq : after.world = before.world
  gate_eq : after.gate = before.gate

/-- Settling one branch does not touch the task of another. -/
theorem BranchSettled.apart {branch : OwnerBranch} {before after : OwnerState}
    (hsettled : BranchSettled graph maxActive mode branch before after) {index : Nat}
    (hindex : index ≠ branch.taskIndex) :
    (DagState.phases after.dag.tasks)[index]? = (DagState.phases before.dag.tasks)[index]? ∧
      after.registry.slots[index]? = before.registry.slots[index]? := by
  rw [hsettled.dag.phases_eq, hsettled.slots_eq, List.getElem?_set_ne hindex.symm]
  simp [hindex.symm]

/-- A branch can be settled when the phase and the slot of its task allow it. -/
theorem settleable_iff {state : OwnerState} {branch : OwnerBranch} :
    Settleable state branch ↔
      (DagState.phases state.dag.tasks)[branch.taskIndex]? = some .reserved ∧
        ∃ slot, state.registry.slots[branch.taskIndex]? = some slot ∧ slot.closed = false := by
  rw [DagState.getElem?_phases, Option.map_eq_some_iff]
  exact ⟨fun hbranch => ⟨hbranch.reserved, hbranch.opened⟩, fun hbranch => ⟨hbranch.1, hbranch.2⟩⟩

theorem BranchSettled.keeps {branch other : OwnerBranch} {before after : OwnerState}
    (hsettled : BranchSettled graph maxActive mode branch before after)
    (hindex : other.taskIndex ≠ branch.taskIndex) (hother : Settleable before other) :
    Settleable after other := by
  obtain ⟨hphase, hslot⟩ := hsettled.apart hindex
  rw [settleable_iff, hphase, hslot, ← settleable_iff]
  exact hother

/-- A branch and then the others. -/
theorem CohortSettled.cons {branch : OwnerBranch} {rest : List OwnerBranch}
    {before between after : OwnerState} (hindex : branch.taskIndex ∉ rest.map OwnerBranch.taskIndex)
    (hsettleable : Settleable before branch)
    (hfirst : BranchSettled graph maxActive mode branch before between)
    (hrest : CohortSettled graph maxActive mode rest between after) :
    CohortSettled graph maxActive mode (branch :: rest) before after := by
  have hapart : ∀ other ∈ rest, other.taskIndex ≠ branch.taskIndex := fun other hother heq =>
    hindex (heq ▸ List.mem_map_of_mem hother)
  obtain ⟨hphase, hslot⟩ := hrest.others _ hindex
  refine ⟨hrest.consistent, hrest.terminal_eq.trans hfirst.dag.terminal_eq, ?_, ?_, ?_,
    hrest.world_eq.trans hfirst.world_eq, hrest.gate_eq.trans hfirst.gate_eq⟩
  · intro other hother
    rcases List.mem_cons.mp hother with rfl | hother
    · obtain ⟨hlt, _⟩ := List.getElem?_eq_some_iff.mp (settleable_iff.mp hsettleable).1
      rw [hphase, hfirst.dag.phases_eq, List.getElem?_set_self hlt]
    · exact hrest.phase_eq other hother
  · intro other hother
    rcases List.mem_cons.mp hother with rfl | hother
    · rw [hslot, hfirst.slots_eq, List.getElem?_modify_eq]
      rfl
    · rw [hrest.slot_eq other hother, (hfirst.apart (hapart other hother)).2]
  · intro index hother
    rw [List.map_cons, List.mem_cons, not_or] at hother
    obtain ⟨hphaseRest, hslotRest⟩ := hrest.others index hother.2
    obtain ⟨hphaseFirst, hslotFirst⟩ := hfirst.apart hother.1
    exact ⟨hphaseRest.trans hphaseFirst, hslotRest.trans hslotFirst⟩

/-- The body of a loop settles any branch that can be settled. -/
def SettlesEach (graph : Dependencies) (maxActive : Nat) (mode : SettleMode)
    (terminal : DagTerminal)
    (body : OwnerBranch → OwnerState × AllocSchedule → (OwnerState × AllocSchedule) × Bool) :
    Prop :=
  ∀ branch state schedule, DagState.Consistent graph maxActive state.dag →
    state.dag.terminal = terminal → Settleable state branch → Plentiful schedule →
    ∃ next rest, body branch (state, schedule) = ((next, rest), true) ∧ Plentiful rest ∧
      BranchSettled graph maxActive mode branch state next

/-- Completing the task of a published branch does not fail. -/
theorem settlesEach_completeBranch (hlinked : graph.Linked) (terminal : DagTerminal) :
    SettlesEach graph maxActive .publish terminal completeBranch := by
  rintro branch state schedule hconsistent - ⟨⟨row, hrow, hreserved⟩, slot, hslot, hopen⟩ hplentiful
  have hfinished := hconsistent.finish_settles hlinked hrow hreserved true
  have hok := hconsistent.finish_ok hlinked hrow hreserved true
  simp only [Bool.not_true, Bool.false_and, Bool.false_eq_true, if_false] at hfinished
  generalize hfinish : state.dag.finish branch.taskIndex true = finish at hfinished hok
  obtain ⟨dag, status⟩ := finish
  obtain rfl : status = .ok := hok
  refine ⟨{ state with
    registry := state.registry.withSlot branch.taskIndex (settledSlot .publish branch slot)
    dag := dag }, schedule, ?_, hplentiful, hfinished, set_eq_modify _ hslot, rfl, rfl⟩
  simp only [completeBranch, TaskRegistry.complete, TaskRegistry.conclude, hslot, hopen,
    Bool.false_eq_true, if_false, hfinish]
  rfl

/-- Settling the task of an aborted branch does not fail once admission is closed. -/
theorem settlesEach_abortBranch (hlinked : graph.Linked) {terminal : DagTerminal}
    (hterminal : terminal ≠ .continuing) (hmode : mode ≠ .publish) :
    SettlesEach graph maxActive mode terminal (abortBranch mode) := by
  rintro branch state schedule hconsistent rfl ⟨⟨row, hrow, hreserved⟩, slot, hslot, hopen⟩
    hplentiful
  by_cases hcancelled : mode = .abortCancelled ∧ branch.cancelledBeforeRun = true
  · obtain ⟨hok, hrefused⟩ := hconsistent.refuse_settles hrow hreserved
    rw [if_neg hterminal] at hrefused
    generalize hrefuse : state.dag.refuse branch.taskIndex = refuse at hrefused hok
    obtain ⟨dag, status⟩ := refuse
    obtain rfl : status = .ok := hok
    refine ⟨{ state with dag := dag }, schedule, ?_, hplentiful, ?_, ?_, rfl, rfl⟩
    · simp only [abortBranch, if_pos hcancelled, hrefuse]
    · rw [settledPhase, if_pos hcancelled]
      exact hrefused
    · rw [← set_eq_modify _ hslot, settledSlot, if_neg hmode, if_pos hcancelled]
      obtain ⟨hlt, hget⟩ := List.getElem?_eq_some_iff.mp hslot
      rw [← hget, List.set_getElem_self]
  · have hfinished := hconsistent.finish_settles hlinked hrow hreserved false
    have hok := hconsistent.finish_ok hlinked hrow hreserved false
    simp only [hterminal, decide_false, Bool.and_false, Bool.false_eq_true, if_false] at hfinished
    generalize hfinish : state.dag.finish branch.taskIndex false = finish at hfinished hok
    obtain ⟨dag, status⟩ := finish
    obtain rfl : status = .ok := hok
    obtain ⟨rest, hrest, hfail⟩ := fail_open hslot hopen mode hplentiful
    refine ⟨{ state with
      registry := state.registry.withSlot branch.taskIndex (abortedSlot mode slot), dag := dag },
      rest, ?_, hrest, ?_, ?_, rfl, rfl⟩
    · simp only [abortBranch, if_neg hcancelled, hfail, hfinish]
    · rw [settledPhase, if_neg hcancelled]
      exact hfinished
    · rw [← set_eq_modify _ hslot, settledSlot, if_neg hmode, if_neg hcancelled]
      rfl

/-- A loop whose body never fails settles every branch. -/
theorem forBranches_settled {terminal : DagTerminal}
    {body : OwnerBranch → OwnerState × AllocSchedule → (OwnerState × AllocSchedule) × Bool}
    (hbody : SettlesEach graph maxActive mode terminal body) (branches : List OwnerBranch) {state : OwnerState} {schedule : AllocSchedule}
    (hconsistent : DagState.Consistent graph maxActive state.dag)
    (hterminal : state.dag.terminal = terminal) (hplentiful : Plentiful schedule)
    (hnodup : (branches.map OwnerBranch.taskIndex).Nodup)
    (hsettleable : ∀ branch ∈ branches, Settleable state branch) :
    ∃ last, forBranches body branches (state, schedule) = (last, true) ∧
      CohortSettled graph maxActive mode branches state last := by
  induction branches generalizing state schedule with
  | nil =>
      exact ⟨state, rfl, hconsistent, rfl, by simp, by simp, fun _ _ => ⟨rfl, rfl⟩, rfl, rfl⟩
  | cons branch rest ih =>
      rw [List.map_cons, List.nodup_cons] at hnodup
      rw [List.forall_mem_cons] at hsettleable
      obtain ⟨next, remaining, hstep, hremaining, hfirst⟩ :=
        hbody branch state schedule hconsistent hterminal hsettleable.1 hplentiful
      have hkept : ∀ other ∈ rest, Settleable next other := fun other hother =>
        hfirst.keeps (fun heq => hnodup.1 (heq ▸ List.mem_map_of_mem hother))
          (hsettleable.2 other hother)
      obtain ⟨last, hloop, hrest⟩ := ih hfirst.dag.consistent
        (hfirst.dag.terminal_eq.trans hterminal) hremaining hnodup.2 hkept
      refine ⟨last, ?_, hrest.cons hnodup.1 hsettleable.1 hfirst⟩
      simp only [forBranches, hstep, hloop]

end Loops

/-! ## What a settlement does -/

/-- The slot of a settled task, against the slot before the call. -/
def SlotSettled (mode : SettleMode) (branch : OwnerBranch) (slot next : TaskSlot) : Prop :=
  if mode = .publish then
    ∃ members merged, branch.output.updates = some (.object members) ∧
      MergedSlot slot members merged ∧ next = settledSlot mode branch merged
  else next = settledSlot mode branch slot

/-- Every object has been settled. -/
structure Settled (graph : Dependencies) (maxActive : Nat) (ledger : Ledger) (cohort : OwnerCohort)
    (mode : SettleMode) (before after : OwnerState) : Prop where
  isSealed : before.gate.isSealed = false ∧ after.gate.isSealed = true
  consistent : DagState.Consistent graph maxActive after.dag
  terminal_eq : after.dag.terminal = settledTerminal mode
  phase_eq : ∀ branch ∈ cohort.branches,
    (DagState.phases after.dag.tasks)[branch.taskIndex]? = some (settledPhase mode branch)
  slot_eq : ∀ branch ∈ cohort.branches, ∃ slot next,
    before.registry.slots[branch.taskIndex]? = some slot ∧
      after.registry.slots[branch.taskIndex]? = some next ∧ SlotSettled mode branch slot next
  others : ∀ index ∉ cohort.taskIndices,
    (DagState.phases after.dag.tasks)[index]? = (DagState.phases before.dag.tasks)[index]? ∧
      after.registry.slots[index]? = before.registry.slots[index]?
  published : mode = .publish → ValuesCommitted ledger cohort.branchValues after.world
  aborted : mode ≠ .publish → after.world.stores = before.world.stores ∧
    ∀ id, after.world.txns id = if id ∈ cohort.branchValues then none else before.world.txns id

/-- No object has been settled; only an abort after a failure may have closed the admission
of new tasks. -/
structure Kept (mode : SettleMode) (before after : OwnerState) : Prop where
  isSealed_eq : after.gate.isSealed = before.gate.isSealed
  registry_eq : after.registry = before.registry
  world_eq : after.world = before.world
  dag_eq : after.dag = before.dag ∨ mode = .abortFailed ∧ before.dag.terminal = .continuing ∧
    after.dag = { before.dag with terminal := .failed }

theorem Kept.refl (mode : SettleMode) (state : OwnerState) : Kept mode state state :=
  ⟨rfl, rfl, rfl, .inl rfl⟩

end OwnerState

section Drain

variable {gate : CohortGate} {owners : Option (List RetainerRef)} {maxSteps : Nat}
  {replies : Nat × Nat → RetainerReply} {result : DrainResult}

/-- A drain turn does not touch the seal. -/
theorem DrainOutcome.isSealed_eq (houtcome : DrainOutcome gate owners maxSteps replies result) :
    result.gate.isSealed = gate.isSealed := by
  cases houtcome <;> rfl

theorem DrainOutcome.status_ne_invariant
    (houtcome : DrainOutcome gate owners maxSteps replies result) : result.status ≠ .invariant := by
  cases houtcome with
  | refused => simp
  | overflowed => simp
  | swept identities last _ _ _ _ _ hspec =>
      simp only
      split
      · simp
      · rcases hspec.result with hresult | hresult | hresult <;> simp [hresult]

end Drain

namespace OwnerState

section Publish

variable {graph : Dependencies} {maxActive : Nat} {ledger : Ledger} {state : OwnerState}
  {cohort : OwnerCohort}

/-- A task with two revisions left stays open when an update is merged. -/
theorem closed_merged {slot next : TaskSlot} {members : List (Bytes × Json)}
    (hmerged : MergedSlot slot members next) (hstate : slot.state.finalized = false)
    (hrevision : slot.revision.toNat + 2 ≤ uint64Max) : next.closed = false := by
  have hfinal : next.state.finalized = false := by
    by_cases hmembers : members = []
    · rw [hmerged.unchanged hmembers, hstate]
    · rw [hmerged.state_eq hmembers]
      split
      · rfl
      · exact hstate
  have hle : next.revision.toNat ≤ slot.revision.toNat + 1 := by
    by_cases hmembers : members = []
    · rw [hmerged.unchanged hmembers]
      exact Nat.le_succ _
    · exact (hmerged.revision_eq hmembers).le
  have hne : next.revision ≠ 18446744073709551615 := by
    intro heq
    have hmax : (18446744073709551615 : UInt64).toNat = uint64Max := rfl
    rw [heq, hmax] at hle
    omega
  simp [TaskSlot.closed, hfinal, TaskSlot.revisionAvailable, hne]

/-- Every task of a cohort has two revisions left. -/
def RevisionsLeft (state : OwnerState) (cohort : OwnerCohort) : Prop :=
  ∀ branch ∈ cohort.branches, ∀ slot, state.registry.slots[branch.taskIndex]? = some slot →
    slot.revision.toNat + 2 ≤ uint64Max

/-- The outputs of a cohort have been merged into the registry. -/
theorem merged_branch (hpre : Preflight state cohort .publish) {registry : TaskRegistry}
    (hmerged : TaskRegistry.OutputsMerged state.registry registry
      (cohort.branches.map OwnerBranch.output)) {branch : OwnerBranch}
    (hbranch : branch ∈ cohort.branches) :
    ∃ slot members next, state.registry.slots[branch.taskIndex]? = some slot ∧
      branch.output.updates = some (.object members) ∧
      registry.slots[branch.taskIndex]? = some next ∧ MergedSlot slot members next := by
  have hlisted := hmerged.listed branch.output (List.mem_map_of_mem hbranch)
  rw [hpre.published rfl branch hbranch] at hlisted
  exact hlisted

/-- Once the outputs are published the tasks of the cohort are completed. -/
theorem published_settled (hlinked : graph.Linked)
    (hconsistent : DagState.Consistent graph maxActive state.dag)
    (hpre : Preflight state cohort .publish) (hrevision : RevisionsLeft state cohort)
    (committed : OwnerState) (hdag : committed.dag = state.dag)
    (hmerged : TaskRegistry.OutputsMerged state.registry committed.registry
      (cohort.branches.map OwnerBranch.output))
    (hvalues : ValuesCommitted ledger cohort.branchValues committed.world)
    (hsealed : committed.gate.isSealed = true) {schedule : AllocSchedule}
    (hplentiful : Plentiful schedule) :
    ∃ last, forBranches completeBranch cohort.branches (committed, schedule) = (last, true) ∧
      Settled graph maxActive ledger cohort .publish state last := by
  have hterminal : state.dag.terminal = .continuing := by
    have hadmitted := hpre.admitted
    simp only [admitsMode, Bool.and_eq_true, decide_eq_true_eq] at hadmitted
    exact hadmitted.1
  have hsettleable : ∀ branch ∈ cohort.branches, Settleable committed branch := by
    intro branch hbranch
    refine ⟨by rw [hdag]; exact hpre.reserved branch hbranch, ?_⟩
    obtain ⟨slot, members, next, hslot, _, hnext, hchange⟩ := merged_branch hpre hmerged hbranch
    obtain ⟨found, hfound, hstate⟩ := hpre.nonterminal branch hbranch
    obtain rfl : slot = found := Option.some.inj (hslot.symm.trans hfound)
    exact ⟨next, hnext, closed_merged hchange hstate (hrevision branch hbranch slot hslot)⟩
  rw [← hdag] at hconsistent hterminal
  obtain ⟨last, hloop, hlast⟩ := forBranches_settled
    (settlesEach_completeBranch hlinked .continuing) cohort.branches hconsistent hterminal
    hplentiful hpre.nodup hsettleable
  refine ⟨last, hloop, ⟨hpre.unsealed, ?_⟩, hlast.consistent, ?_, hlast.phase_eq, ?_, ?_, ?_, ?_⟩
  · rw [hlast.gate_eq, hsealed]
  · rw [hlast.terminal_eq, hterminal]
    rfl
  · intro branch hbranch
    obtain ⟨slot, members, next, hslot, hupdates, hnext, hchange⟩ :=
      merged_branch hpre hmerged hbranch
    refine ⟨slot, settledSlot .publish branch next, hslot, ?_, ?_⟩
    · rw [hlast.slot_eq branch hbranch, hnext]
      rfl
    · rw [SlotSettled, if_pos rfl]
      exact ⟨members, next, hupdates, hchange, rfl⟩
  · intro index hindex
    obtain ⟨hphase, hslot⟩ := hlast.others index hindex
    refine ⟨by rw [hphase, hdag], hslot.trans (hmerged.others index fun update hupdate heq => ?_)⟩
    obtain ⟨branch, hbranch, rfl⟩ := List.mem_map.mp hupdate
    rw [hpre.published rfl branch hbranch] at heq
    exact hindex (heq ▸ List.mem_map_of_mem hbranch)
  · intro _
    rw [hlast.world_eq]
    exact hvalues
  · exact fun hne => absurd rfl hne

/-- Publication goes through or leaves everything as it was. -/
theorem settlePublish_agrees (hlinked : graph.Linked)
    (hconsistent : DagState.Consistent graph maxActive state.dag) (hsound : ledger.Sound)
    (hworld : state.world = ledger.world) (hpre : Preflight state cohort .publish)
    (hrevision : RevisionsLeft state cohort) (library : JsonLibrary) {turn : SettleTurn}
    (hplentiful : Plentiful turn.schedule) :
    (state.settlePublish library cohort turn).status ≠ .invariant ∧
      (Settled graph maxActive ledger cohort .publish state
          (state.settlePublish library cohort turn).state ∨
        Kept .publish state (state.settlePublish library cohort turn).state) := by
  simp only [settlePublish]
  have houtcome := commitAfterCflowAndProcessDrains_outcome library state.gate
    (state.commitTurn cohort turn)
  generalize commitAfterCflowAndProcessDrains library state.gate (state.commitTurn cohort turn) =
    commit at houtcome
  cases houtcome with
  | stopped status hok hinvariant =>
      simp only [CommitTurn.stop, ne_eq, hok, not_false_eq_true, if_true, hinvariant, if_false,
        true_and]
      exact .inr ⟨rfl, rfl, rfl, .inl rfl⟩
  | drained result hdrain hok =>
      have hinvariant := hdrain.status_ne_invariant
      simp only [ne_eq, hok, not_false_eq_true, if_true, hinvariant, if_false, true_and]
      exact .inr ⟨hdrain.isSealed_eq, rfl, rfl, .inl rfl⟩
  | attempted result commit _ _ hdrain _ hcommit =>
      have hspec := ParallelSpec.of_sound hsound library state.registry
        (cohort.branches.map fun branch => (branch.output, branch.values)) turn.schedule
      rw [← hworld] at hspec
      obtain rfl : commit = parallelCommit library state.registry state.world
        (cohort.branches.map fun branch => (branch.output, branch.values)) turn.schedule := hcommit
      generalize parallelCommit library state.registry state.world
        (cohort.branches.map fun branch => (branch.output, branch.values)) turn.schedule =
          commit at hspec
      have hunsealed : result.gate.isSealed = false := hdrain.isSealed_eq.trans hpre.unsealed
      by_cases hok : commit.status = .ok
      · obtain ⟨hmerged, hvalues⟩ := hspec.committed hok
        rw [List.map_map] at hmerged hvalues
        obtain ⟨last, hloop, hsettled⟩ := published_settled hlinked hconsistent hpre hrevision
          { state with
            registry := commit.registry
            world := commit.world
            gate := { result.gate with
              isSealed := result.gate.isSealed || commit.status = .ok ||
                commit.status = .invariant } }
          rfl hmerged hvalues (by simp [hok]) hplentiful
        rw [if_neg (not_not.mpr hok), hloop]
        exact ⟨by simp, .inl hsettled⟩
      · obtain ⟨hregistry, hsame⟩ := hspec.refused hok
        simp only [ne_eq, hok, not_false_eq_true, if_true, hspec.never_invariant, if_false,
          true_and]
        refine .inr ⟨?_, hregistry, hsame.trans hworld.symm, .inl rfl⟩
        simp [hunsealed, hpre.unsealed]

end Publish

section Abort

variable {graph : Dependencies} {maxActive : Nat} {ledger : Ledger} {state : OwnerState}
  {cohort : OwnerCohort} {turn : SettleTurn}

/-- Draining settles the tasks of a cohort or leaves everything but the gate as it was. -/
theorem drainAborted_agrees (hlinked : graph.Linked)
    (hconsistent : DagState.Consistent graph maxActive state.dag)
    (hterminal : state.dag.terminal = settledTerminal turn.mode)
    (hstopped : settledTerminal turn.mode ≠ .continuing) (hmode : turn.mode ≠ .publish)
    (hunsealed : state.gate.isSealed = false) (hnodup : cohort.taskIndices.Nodup)
    (hsettleable : ∀ branch ∈ cohort.branches, Settleable state branch)
    (hplentiful : Plentiful turn.schedule) :
    (state.drainAborted cohort turn).status ≠ .invariant ∧
      (Settled graph maxActive ledger cohort turn.mode state
          (state.drainAborted cohort turn).state ∨
        ∃ gate, gate.isSealed = false ∧
          (state.drainAborted cohort turn).state = { state with gate := gate }) := by
  have hdrain := drainProcessRetainers_outcome state.gate cohort.retainers turn.maxSteps turn.replies
  have hopen := hdrain.isSealed_eq.trans hunsealed
  simp only [drainAborted]
  generalize drainProcessRetainers state.gate cohort.retainers turn.maxSteps turn.replies =
    drained at hopen
  split
  · exact ⟨by simp, .inr ⟨drained.gate, hopen, rfl⟩⟩
  split
  · exact ⟨by simp, .inr ⟨drained.gate, hopen, rfl⟩⟩
  split
  · refine ⟨?_, .inr ⟨drained.gate, hopen, rfl⟩⟩
    simp only
    split <;> simp
  · obtain ⟨last, hloop, hlast⟩ := @forBranches_settled graph maxActive turn.mode _ _
      (settlesEach_abortBranch hlinked hstopped hmode) cohort.branches
      { state with
        world := cohort.branchValues.foldl World.txnAbort state.world, gate := drained.gate }
      turn.schedule hconsistent hterminal hplentiful hnodup
      fun branch hbranch => ⟨(hsettleable branch hbranch).1, (hsettleable branch hbranch).2⟩
    obtain ⟨hstores, htxns⟩ := Ledger.foldl_txnAbort cohort.branchValues state.world
    simp only [settleAborted, hloop]
    refine ⟨by split <;> simp, .inl ⟨⟨hunsealed, rfl⟩, hlast.consistent,
      hlast.terminal_eq.trans hterminal, hlast.phase_eq, fun branch hbranch => ?_, hlast.others,
      fun hpublish => absurd hpublish hmode, fun _ => ?_⟩⟩
    · obtain ⟨slot, hslot, _⟩ := (hsettleable branch hbranch).opened
      refine ⟨slot, settledSlot turn.mode branch slot, hslot, ?_, ?_⟩
      · rw [hlast.slot_eq branch hbranch, hslot]
        rfl
      · rw [SlotSettled, if_neg hmode]
    · rw [hlast.world_eq]
      exact ⟨hstores, htxns⟩

/-- The task of a branch can be settled when it has passed the checks. -/
theorem Preflight.settleable (hpre : Preflight state cohort turn.mode)
    (hrevision : RevisionsLeft state cohort) {branch : OwnerBranch}
    (hbranch : branch ∈ cohort.branches) : Settleable state branch := by
  obtain ⟨slot, hslot, hstate⟩ := hpre.nonterminal branch hbranch
  exact ⟨hpre.reserved branch hbranch, slot, hslot,
    closed_merged (.empty slot) hstate (hrevision branch hbranch slot hslot)⟩

/-- Closing admission after a failure. -/
theorem stop_failed (dag : DagState)
    (hterminal : dag.terminal = .continuing ∨ dag.terminal = .failed) :
    dag.stop .failed = ({ dag with terminal := .failed }, .ok) := by
  rcases hterminal with hterminal | hterminal <;> simp [DagState.stop, hterminal]

/-- An abort settles the cohort or leaves everything as it was. -/
theorem settleAbort_agrees (hlinked : graph.Linked)
    (hconsistent : DagState.Consistent graph maxActive state.dag)
    (hpre : Preflight state cohort turn.mode) (hrevision : RevisionsLeft state cohort)
    (hmode : turn.mode ≠ .publish) (hplentiful : Plentiful turn.schedule) :
    (state.settleAbort cohort turn).status ≠ .invariant ∧
      (Settled graph maxActive ledger cohort turn.mode state
          (state.settleAbort cohort turn).state ∨
        Kept turn.mode state (state.settleAbort cohort turn).state) := by
  have hkept (status : ParallelStatus) (hstatus : status ≠ .invariant) :
      status ≠ .invariant ∧
        (Settled graph maxActive ledger cohort turn.mode state state ∨ Kept turn.mode state state) :=
    ⟨hstatus, .inr (.refl _ _)⟩
  have hadmitted := hpre.admitted
  simp only [settleAbort]
  split
  · exact hkept _ (by simp)
  split
  · exact hkept _ (by simp)
  split
  · exact hkept _ (by simp)
  split
  · exact hkept _ (by simp)
  · exact hkept _ (by simp)
  · exact hkept _ (by simp)
  split
  · rename_i hfailed
    split
    · exact hkept _ (by simp)
    have hterminal : state.dag.terminal = .continuing ∨ state.dag.terminal = .failed := by
      simpa [hfailed, admitsMode] using hadmitted
    have hnext := hconsistent.preserved (DagState.stop_effect state.dag .failed)
    simp only [DagState.step, stop_failed _ hterminal] at hnext ⊢
    obtain ⟨hstatus, hsettled | ⟨gate, hgate, hsame⟩⟩ := @drainAborted_agrees graph maxActive
      ledger { state with dag := { state.dag with terminal := .failed } } cohort turn hlinked hnext
      (by simp [hfailed, settledTerminal]) (by simp [hfailed, settledTerminal]) hmode hpre.unsealed
      hpre.nodup (fun branch hbranch =>
        ⟨(hpre.settleable hrevision hbranch).1, (hpre.settleable hrevision hbranch).2⟩) hplentiful
    · exact ⟨hstatus, .inl ⟨hsettled.isSealed, hsettled.consistent, hsettled.terminal_eq,
        hsettled.phase_eq, hsettled.slot_eq, hsettled.others, hsettled.published, hsettled.aborted⟩⟩
    · refine ⟨hstatus, .inr ?_⟩
      rw [hsame]
      refine ⟨hgate.trans hpre.unsealed.symm, rfl, rfl, ?_⟩
      rcases hterminal with hterminal | hterminal
      · exact .inr ⟨hfailed, hterminal, rfl⟩
      · rw [← hterminal]
        exact .inl rfl
  split
  · exact hkept _ (by simp)
  · rename_i hnotFailed _
    have hcancelled : turn.mode = .abortCancelled := by
      cases hturn : turn.mode with
      | publish => exact absurd hturn hmode
      | abortFailed => exact absurd hturn hnotFailed
      | abortCancelled => rfl
      | unknown code => simp [hturn, admitsMode] at hadmitted
    have hterminal : state.dag.terminal = .cancelled := by
      rw [hcancelled] at hadmitted
      simp only [admitsMode, Bool.and_eq_true, decide_eq_true_eq] at hadmitted
      exact hadmitted.1
    obtain ⟨hstatus, hsettled | ⟨gate, hgate, hsame⟩⟩ := @drainAborted_agrees graph maxActive
      ledger state cohort turn hlinked hconsistent (by rw [hterminal, hcancelled]; rfl)
      (by simp [hcancelled, settledTerminal]) hmode hpre.unsealed hpre.nodup
      (fun branch hbranch => hpre.settleable hrevision hbranch) hplentiful
    · exact ⟨hstatus, .inl hsettled⟩
    · refine ⟨hstatus, .inr ?_⟩
      rw [hsame]
      exact ⟨hgate.trans hpre.unsealed.symm, rfl, rfl, .inl rfl⟩

/-- The two outcomes exclude each other. -/
theorem Settled.not_kept {mode : SettleMode} {after : OwnerState}
    (hsettled : Settled graph maxActive ledger cohort mode state after) : ¬ Kept mode state after := by
  intro hkept
  have hsame := hkept.isSealed_eq
  rw [hsettled.isSealed.1, hsettled.isSealed.2] at hsame
  cases hsame

end Abort

/-- Settling a cohort keeps readiness counter, registry and values in agreement: in every
reachable state of the counter and of the value stores, for every cohort and whatever the
executor and the retainers answer, either every task is settled or nothing is.  The tasks
of the cohort have two revisions left, and allocation succeeds. -/
theorem settleCohort_agrees {metadata : List (Option Json)} {graph : Dependencies}
    {maxActive : Nat} {init : DagState} (hgraph : Dependencies.create metadata = .ok graph)
    (hinit : DagState.create graph maxActive = .ok init)
    {calls : List (DagRequest × DagReply)} {state : OwnerState}
    (hdag : Run DagState.step init calls state.dag) {ledger : Ledger}
    {history : List (ValueRequest × ValueStatus)}
    (hvalues : Run Ledger.step Ledger.empty history ledger) (hworld : state.world = ledger.world)
    (library : JsonLibrary) (cohort : OwnerCohort) (turn : SettleTurn)
    (hrevision : RevisionsLeft state cohort) (hplentiful : Plentiful turn.schedule) :
    (state.settleCohort library cohort turn).status ≠ .invariant ∧
      Xor (Settled graph maxActive ledger cohort turn.mode state
          (state.settleCohort library cohort turn).state)
        (Kept turn.mode state (state.settleCohort library cohort turn).state) := by
  obtain ⟨haccepted, hconsistent, _⟩ := DagState.consistent_of_run hgraph hinit hdag
  suffices hagrees : (state.settleCohort library cohort turn).status ≠ .invariant ∧
      (Settled graph maxActive ledger cohort turn.mode state
          (state.settleCohort library cohort turn).state ∨
        Kept turn.mode state (state.settleCohort library cohort turn).state) by
    obtain ⟨hstatus, hsettled | hkept⟩ := hagrees
    · exact ⟨hstatus, .inl ⟨hsettled, hsettled.not_kept⟩⟩
    · exact ⟨hstatus, .inr ⟨hkept, fun hsettled => hsettled.not_kept hkept⟩⟩
  rw [settleCohort]
  split
  · exact ⟨by simp, .inr (.refl _ _)⟩
  rename_i hcheck
  have hpre : Preflight state cohort turn.mode := preflight_of_check (by simpa using hcheck)
  split
  · rename_i hpublish
    rw [hpublish] at hpre ⊢
    exact settlePublish_agrees haccepted.linked hconsistent (Ledger.sound_of_run hvalues) hworld
      hpre hrevision library hplentiful
  · rename_i hmode
    exact settleAbort_agrees haccepted.linked hconsistent hpre hrevision hmode hplentiful

/-- Two tasks that do not depend on each other. -/
def independent : List (Option Json) :=
  [some (.object [(ascii "name", .string (ascii "build"))]),
    some (.object [(ascii "name", .string (ascii "test"))])]

/-- The projection of `independent`. -/
def independentGraph : Dependencies where
  tasks := [⟨ascii "build", none⟩, ⟨ascii "test", none⟩]
  edges := []
  nameSlots := [none, none, none, some 0, none, some 1, none, none]

/-- No task of `independent` has been claimed. -/
def independentDag : DagState :=
  ⟨independentGraph, [⟨0, .pending⟩, ⟨0, .pending⟩], 2, 0, 0, .continuing⟩

/-- Both tasks of `independent` run in one cohort, with the registry `freshPair`, the two
transactions of `Ledger.paired` and a new gate. -/
def pairedOwner : OwnerState :=
  ⟨drive DagState.step independentDag [.claimReady 2], freshPair,
    (drive Ledger.step Ledger.empty Ledger.paired).world, CohortGate.zero.recoveryInit.1⟩

/-- The cohort of both tasks. -/
def pairedCohort : OwnerCohort :=
  ⟨true, true,
    [⟨0, ⟨0, some (.object [(ascii "code", .number (.parsed (ascii "0")))])⟩, 0, true, false,
        ⟨some 1, some 11⟩⟩,
      ⟨1, ⟨1, some (.object [])⟩, 1, true, false, ⟨some 2, some 12⟩⟩], true, true⟩

/-- The executor ran both branches, and no retainer has anything pending. -/
def pairedSettle (mode : SettleMode) : SettleTurn :=
  ⟨mode, 8, ⟨true, 2, 0, 0, 0, 0, true, 0, 0, 2, .idle⟩, fun _ => ⟨.ok, 0, 0⟩, []⟩

theorem settleCohort_agrees_paired :
    (pairedOwner.settleCohort inPlace pairedCohort (pairedSettle .publish)).status = .ok ∧
      (pairedOwner.settleCohort inPlace pairedCohort (pairedSettle .publish)).status ≠
          .invariant ∧
        Xor (Settled independentGraph 2 (drive Ledger.step Ledger.empty Ledger.paired) pairedCohort
            .publish pairedOwner
            (pairedOwner.settleCohort inPlace pairedCohort (pairedSettle .publish)).state)
          (Kept .publish pairedOwner
            (pairedOwner.settleCohort inPlace pairedCohort (pairedSettle .publish)).state) := by
  have hrevision : RevisionsLeft pairedOwner pairedCohort := by
    intro branch hbranch slot hslot
    simp only [pairedCohort, List.mem_cons, List.not_mem_nil, or_false] at hbranch
    rcases hbranch with rfl | rfl <;> cases hslot <;> decide
  have hgraph : Dependencies.create independent = .ok independentGraph := by rfl
  exact ⟨by decide, settleCohort_agrees hgraph rfl
    (run_drive DagState.step independentDag [.claimReady 2])
    (run_drive Ledger.step Ledger.empty Ledger.paired) rfl inPlace pairedCohort
    (pairedSettle .publish) hrevision (List.not_mem_nil)⟩

end OwnerState

end Praktor.Runtime
