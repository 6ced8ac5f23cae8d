/-
# Publishing typed and text outputs together

`praktor_c11_workflow_parallel_commit` publishes the outputs of completed branches:
the typed outputs of each branch go to the slot of its task, its text values sit in
a transaction on the common root store.  It prepares the typed outputs, commits the
transactions as a group and then publishes what was prepared.  There is no rollback,
so the two stores agree only if the last step cannot fail.

A branch is an update together with a transaction handle; the two arrays of the
source have one common length.
-/

import Praktor.Values.Commit
import Praktor.Workflow.TaskRegistry

namespace Praktor.Workflow

open Praktor.Data Praktor.Math Praktor.Values

/-- `praktor_c11_parallel_commit_status`. -/
inductive ParallelStatus
  | ok
  | invalid
  | conflict
  | capacity
  | memory
  | busy
  | invariant
  | recovery
  | cancelled
  | failed
  deriving DecidableEq, Repr

namespace ParallelStatus

/-- `registry_status`. -/
def ofRegistry : Salts → ParallelStatus
  | .ok => .ok
  | .enomem => .memory
  | .ebusy => .busy
  | _ => .invalid

/-- `value_status`. -/
def ofValue : ValueStatus → ParallelStatus
  | .ok => .ok
  | .econflict => .conflict
  | .enospc => .capacity
  | .enobufs => .capacity
  | .enomem => .memory
  | _ => .invalid

theorem ofValue_ne_invariant (status : ValueStatus) : ofValue status ≠ .invariant := by
  cases status <;> simp [ofValue]

theorem ofValue_eq_ok_iff {status : ValueStatus} : ofValue status = .ok ↔ status = .ok := by
  cases status <;> simp [ofValue]

theorem ofRegistry_ne_invariant (status : Salts) : ofRegistry status ≠ .invariant := by
  cases status <;> simp [ofRegistry]

theorem ofRegistry_eq_ok_iff {status : Salts} : ofRegistry status = .ok ↔ status = .ok := by
  cases status <;> simp [ofRegistry]

end ParallelStatus

/-- What a parallel commit leaves behind. -/
structure ParallelResult where
  registry : TaskRegistry
  world : World
  status : ParallelStatus

/-- `praktor_c11_workflow_parallel_commit`. -/
def parallelCommit (library : JsonLibrary) (registry : TaskRegistry) (world : World)
    (branches : List (TaskOutputUpdate × Nat)) (schedule : AllocSchedule) : ParallelResult :=
  if branches.length = 0 || branches.length > registry.count then ⟨registry, world, .invalid⟩
  else
    match registry.prepareOutputGroup library (branches.map Prod.fst) schedule with
    | (.error status, _) => ⟨registry, world, .ofRegistry status⟩
    | (.ok staged, schedule) =>
        match world.txnCommitGroup (branches.map Prod.snd) schedule with
        | (committed, status, _) =>
            if status ≠ .ok then ⟨registry, committed, .ofValue status⟩
            else
              let (published, status) := registry.publishOutputGroup staged
              if status ≠ .ok then ⟨published, committed, .invariant⟩
              else ⟨published, committed, .ok⟩

/-- The group commit of `ids` took effect: their net writes lie over the root store
and the transactions are gone. -/
structure ValuesCommitted (ledger : Ledger) (ids : List Nat) (after : World) : Prop where
  root : ∃ target store next, ledger.GroupOn ids target ∧
    ledger.world.stores target = some store ∧
    after.stores = Function.update ledger.world.stores target (some next) ∧
    next.limits = store.limits ∧
    next.findEntry = overlay store.findEntry (Snapshot.groupNet (ids.map ledger.snapshotOf))
  consumed : ∀ id, after.txns id = if id ∈ ids then none else ledger.world.txns id

theorem txnCommitGroup_atomic {ledger : Ledger} (hsound : ledger.Sound) (ids : List Nat)
    (schedule : AllocSchedule) :
    ((ledger.world.txnCommitGroup ids schedule).2.1 ≠ .ok →
      (ledger.world.txnCommitGroup ids schedule).1 = ledger.world) ∧
    ((ledger.world.txnCommitGroup ids schedule).2.1 = .ok →
      ValuesCommitted ledger ids (ledger.world.txnCommitGroup ids schedule).1) := by
  rcases hsound.txnCommitGroup_cases ids schedule with
    ⟨hsame, hstatus⟩ | ⟨target, store, hgroup, hstore, houtcome⟩
  · refine ⟨fun _ => hsame, fun hok => ?_⟩
    rcases hstatus with hstatus | hstatus <;> simp [hstatus] at hok
  · generalize (ledger.world.txnCommitGroup ids schedule).1 = after at houtcome ⊢
    generalize (ledger.world.txnCommitGroup ids schedule).2.1 = status at houtcome ⊢
    cases houtcome with
    | conflicting => exact ⟨fun _ => rfl, by simp⟩
    | full => exact ⟨fun _ => rfl, by simp⟩
    | committed _ _ next hlimits hlookup =>
        obtain ⟨hstores, htxns⟩ := Ledger.foldl_txnAbort ids (ledger.world.withStore target next)
        exact ⟨fun hne => absurd rfl hne, fun _ =>
          ⟨⟨target, store, next, hgroup, hstore, hstores, hlimits, hlookup⟩, htxns⟩⟩

/-- All of a parallel commit or none of it. -/
structure ParallelSpec (registry : TaskRegistry) (ledger : Ledger)
    (branches : List (TaskOutputUpdate × Nat)) (result : ParallelResult) : Prop where
  never_invariant : result.status ≠ .invariant
  committed : result.status = .ok →
    TaskRegistry.OutputsMerged registry result.registry (branches.map Prod.fst) ∧
      ValuesCommitted ledger (branches.map Prod.snd) result.world
  refused : result.status ≠ .ok → result.registry = registry ∧ result.world = ledger.world

theorem ParallelSpec.nothing {registry : TaskRegistry} {ledger : Ledger}
    {branches : List (TaskOutputUpdate × Nat)} {status : ParallelStatus} (hok : status ≠ .ok)
    (hinvariant : status ≠ .invariant) :
    ParallelSpec registry ledger branches ⟨registry, ledger.world, status⟩ :=
  ⟨hinvariant, fun h => absurd h hok, fun _ => ⟨rfl, rfl⟩⟩

/-- A parallel commit on a sound ledger publishes everything or nothing. -/
theorem ParallelSpec.of_sound {ledger : Ledger} (hsound : ledger.Sound) (library : JsonLibrary)
    (registry : TaskRegistry) (branches : List (TaskOutputUpdate × Nat))
    (schedule : AllocSchedule) :
    ParallelSpec registry ledger branches
      (parallelCommit library registry ledger.world branches schedule) := by
  rw [parallelCommit]
  split
  · exact .nothing (by simp) (by simp)
  split
  · rename_i herror
    have hne := registry.prepareOutputGroup_ne library (branches.map Prod.fst) schedule
    rw [herror, ne_eq, Except.error.injEq] at hne
    exact .nothing (mt ParallelStatus.ofRegistry_eq_ok_iff.mp hne)
      (ParallelStatus.ofRegistry_ne_invariant _)
  · rename_i staged rest hprepared
    obtain ⟨hgroup, hnodup⟩ := TaskRegistry.prepareOutputGroup_ok hprepared
    obtain ⟨hpublished, hmerged⟩ := TaskRegistry.publishOutputGroup_prepared hgroup hnodup
    obtain ⟨hrefused, hcommitted⟩ :=
      txnCommitGroup_atomic hsound (branches.map Prod.snd) rest
    split
    rename_i committed status schedule' hcommit
    rw [hcommit] at hrefused hcommitted
    by_cases hstatus : status = .ok
    · simp only [hstatus, hpublished, ne_eq, not_true_eq_false, if_false]
      exact ⟨by simp, fun _ => ⟨hmerged, hcommitted hstatus⟩, fun hne => absurd rfl hne⟩
    · simp only [ne_eq, hstatus, not_false_eq_true, if_true]
      obtain rfl : committed = ledger.world := hrefused hstatus
      exact .nothing (mt ParallelStatus.ofValue_eq_ok_iff.mp hstatus)
        (ParallelStatus.ofValue_ne_invariant status)

/-- For every registry, every reachable state of the value layer, every list of
branches and every pattern of allocation failures, a parallel commit publishes
everything or nothing, and its publication step is never refused. -/
theorem parallelCommit_atomic {ledger : Ledger} {history : List (ValueRequest × ValueStatus)}
    (hrun : Run Ledger.step Ledger.empty history ledger) (library : JsonLibrary)
    (registry : TaskRegistry) (branches : List (TaskOutputUpdate × Nat))
    (schedule : AllocSchedule) :
    ParallelSpec registry ledger branches
      (parallelCommit library registry ledger.world branches schedule) :=
  .of_sound (Ledger.sound_of_run hrun) library registry branches schedule

/-- Replace the value under a key in place, or add the member at the end. -/
def replaceMember : List (Bytes × Json) → Bytes → Json → List (Bytes × Json)
  | [], key, value => [(key, value)]
  | (name, old) :: rest, key, value =>
      if name = key then (key, value) :: rest else (name, old) :: replaceMember rest key value

theorem lookup_replaceMember (members : List (Bytes × Json)) (key : Bytes) (value : Json)
    (other : Bytes) : (replaceMember members key value).lookup other =
      if other = key then some value else members.lookup other := by
  induction members with
  | nil => rw [replaceMember, Json.lookup_member]
  | cons member rest ih =>
      obtain ⟨name, old⟩ := member
      rw [replaceMember]
      by_cases hname : name = key
      · rw [if_pos hname, Json.lookup_member, Json.lookup_member, hname]
        by_cases hother : other = key <;> simp [hother]
      · rw [if_neg hname, Json.lookup_member, Json.lookup_member, ih]
        by_cases hother : other = name
        · simp [hother, hname]
        · simp [hother]

/-- A JSON package that keeps members in place. -/
def inPlace : JsonLibrary := ⟨replaceMember, lookup_replaceMember⟩

/-- Two tasks that have just been created. -/
def freshPair : TaskRegistry :=
  ⟨[⟨ascii "build", .pending, none, none, 0⟩, ⟨ascii "test", .running, none, none, 1⟩]⟩

/-- The outputs of both tasks with the two transactions of `Ledger.paired`; the second
update is empty. -/
def pairedBranches : List (TaskOutputUpdate × Nat) :=
  [(⟨0, some (.object [(ascii "code", .number (.parsed (ascii "0")))])⟩, 0), (⟨1, some (.object [])⟩, 1)]

theorem parallelCommit_atomic_paired :
    (parallelCommit inPlace freshPair (drive Ledger.step Ledger.empty Ledger.paired).world
        pairedBranches []).status = .ok ∧
      ParallelSpec freshPair (drive Ledger.step Ledger.empty Ledger.paired) pairedBranches
        (parallelCommit inPlace freshPair (drive Ledger.step Ledger.empty Ledger.paired).world
          pairedBranches []) := by
  have hrun := run_drive Ledger.step Ledger.empty Ledger.paired
  exact ⟨by decide, parallelCommit_atomic hrun inPlace freshPair pairedBranches []⟩

end Praktor.Workflow
