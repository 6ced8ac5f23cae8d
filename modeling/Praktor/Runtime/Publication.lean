/-
# Publishing the outputs of a task

`publish_success` reads the ports of a successful task from its scope, drafts them in
a transaction on the root store and commits text and typed outputs together, as often
as the executor or the process retainer ask to try again.  Whatever happens, no
transaction is left.  `publish_failure_exit` records the exit code of a failed Shell
in the registry only.

What an attempt sees of the executor, of the retainer and of the clock is input, and
so are the outcomes of the allocation calls.
-/

import Praktor.Runtime.Admission
import Praktor.Workflow.ParallelCommit

namespace Praktor.Runtime

open Praktor.Data Praktor.Math Praktor.Values Praktor.Workflow

/-! ## Drained commits -/

/-- `cflow_executor_wait_status`, statuses that are never looked at being one. -/
inductive WaitStatus
  | idle
  | pending
  | wouldBlock
  | refused
  deriving DecidableEq, Repr

/-- What one attempt sees: the statistics of the executor if there are any, the answer
to the wait, the answer of the retainer with the processes still pending, and the
outcomes of the allocation calls. -/
structure DrainObservation where
  hasStats : Bool
  accepted : Nat
  rejectedFull : Nat
  rejectedClosed : Nat
  rejectedWouldBlock : Nat
  cancelled : Nat
  closed : Bool
  queued : Nat
  running : Nat
  completed : Nat
  waited : WaitStatus
  retainer : Salts
  pending : Nat
  schedule : AllocSchedule

/-- `praktor_c11_workflow_parallel_commit_after_process_drain`, with the pending count
it reports. -/
def commitAfterProcessDrain (library : JsonLibrary) (registry : TaskRegistry) (world : World)
    (branches : List (TaskOutputUpdate × Nat)) (seen : DrainObservation) : ParallelResult × Nat :=
  if branches.length = 0 then (⟨registry, world, .invalid⟩, 0)
  else if seen.retainer ≠ .ok ∧ seen.retainer ≠ .ebusy then
    (⟨registry, world, .recovery⟩, seen.pending)
  else if seen.retainer = .ebusy ∨ seen.pending ≠ 0 then (⟨registry, world, .busy⟩, seen.pending)
  else (parallelCommit library registry world branches seen.schedule, seen.pending)

/-- `praktor_c11_workflow_parallel_commit_after_cflow_and_process_drain`. -/
def commitAfterCflowAndProcessDrain (library : JsonLibrary) (registry : TaskRegistry)
    (world : World) (branches : List (TaskOutputUpdate × Nat)) (seen : DrainObservation) :
    ParallelResult × Nat :=
  if branches.length = 0 || !seen.hasStats then (⟨registry, world, .invalid⟩, 0)
  else if seen.accepted ≠ branches.length || seen.rejectedFull ≠ 0 || seen.rejectedClosed ≠ 0 ||
      seen.rejectedWouldBlock ≠ 0 then (⟨registry, world, .invalid⟩, 0)
  else if seen.cancelled ≠ 0 then (⟨registry, world, .cancelled⟩, 0)
  else if !seen.closed || seen.queued ≠ 0 || seen.running ≠ 0 ||
      seen.completed ≠ seen.accepted then (⟨registry, world, .busy⟩, 0)
  else
    match seen.waited with
    | .pending => (⟨registry, world, .busy⟩, 0)
    | .wouldBlock => (⟨registry, world, .busy⟩, 0)
    | .refused => (⟨registry, world, .invalid⟩, 0)
    | .idle => commitAfterProcessDrain library registry world branches seen

/-- A drained commit does nothing, or it is a parallel commit with nothing pending. -/
theorem drainedCommit_cases (library : JsonLibrary) (registry : TaskRegistry) (world : World)
    (branches : List (TaskOutputUpdate × Nat)) (seen : DrainObservation) :
    (∃ status pending, status ≠ .ok ∧
      commitAfterCflowAndProcessDrain library registry world branches seen =
        (⟨registry, world, status⟩, pending)) ∨
    commitAfterCflowAndProcessDrain library registry world branches seen =
      (parallelCommit library registry world branches seen.schedule, 0) := by
  rw [commitAfterCflowAndProcessDrain]
  split_ifs
  · exact .inl ⟨_, _, by simp, rfl⟩
  · exact .inl ⟨_, _, by simp, rfl⟩
  · exact .inl ⟨_, _, by simp, rfl⟩
  · exact .inl ⟨_, _, by simp, rfl⟩
  cases seen.waited with
  | pending => exact .inl ⟨_, _, by simp, rfl⟩
  | wouldBlock => exact .inl ⟨_, _, by simp, rfl⟩
  | refused => exact .inl ⟨_, _, by simp, rfl⟩
  | idle =>
      simp only [commitAfterProcessDrain]
      split_ifs with _ _ hbusy
      · exact .inl ⟨_, _, by simp, rfl⟩
      · exact .inl ⟨_, _, by simp, rfl⟩
      · exact .inl ⟨_, _, by simp, rfl⟩
      · rw [not_or, not_not] at hbusy
        exact .inr (by rw [hbusy.2])

/-! ## Ports -/

/-- A port of a task: the key its text has in the scope and its label among the typed
outputs. -/
structure OutputPort where
  key : CString
  label : CString

/-- The ports of a Shell. -/
def shellPorts : List OutputPort :=
  [⟨.literal "shell_exit_code", .literal "exit_code"⟩,
    ⟨.literal "shell_output", .literal "stdout"⟩,
    ⟨.literal "shell_stderr", .literal "stderr"⟩]

/-- The ports of a task; `none` stands for a Shell. -/
def outputPorts : Option CString → List OutputPort
  | none => shellPorts
  | some key => [⟨key, key⟩]

/-- The keys a publication reads. -/
def portKeys (setKey : Option CString) : List CString := (outputPorts setKey).map OutputPort.key

/-- `native_set_key`: the literal text of the parameter `key`. -/
def nativeSetKey (tree : OrchTree) (capacity : Nat) : Except Salts CString :=
  match tree.root with
  | some ⟨.setVariable, params, _⟩ =>
      match params.find? fun param => param.key = .literal "key" with
      | none => .error .einval
      | some param =>
          if param.value.length = 0 || param.value.length ≥ capacity then .error .einval
          else
            match CString.ofBytes param.value with
            | none => .error .einval
            | some key => .ok key
  | _ => .error .enotsup

/-- `read_output` into a buffer of `capacity` bytes. -/
def readOutput (store : ValueStore) (key : CString) (capacity : Nat) : Except Salts CString :=
  match store.get (some key) (some capacity) with
  | (.ok, some length, some text) => if length ≥ capacity then .error .einval else .ok text
  | _ => .error .enoent

/-- The port loop of `publish_success`: the typed outputs. -/
def readPorts (library : JsonLibrary) (scope : ValueStore) :
    List OutputPort → List (Bytes × Json) → AllocSchedule →
      Except Salts (List (Bytes × Json)) × AllocSchedule
  | [], typed, schedule => (.ok typed, schedule)
  | port :: rest, typed, schedule =>
      match readOutput scope port.key (maxValue + 1) with
      | .error _ => (.error .einval, schedule)
      | .ok text =>
          let (value, schedule) := schedule.alloc
          if value.isNone then (.error .einval, schedule)
          else
            let (added, schedule) := schedule.alloc
            if added.isNone then (.error .einval, schedule)
            else
              readPorts library scope rest
                (library.add typed port.label.bytes (.string text.bytes)) schedule

/-! ## Publication -/

/-- What a publication leaves behind. -/
structure PublishResult where
  registry : TaskRegistry
  world : World
  status : Salts

/-- The commit loop of `publish_success`.  The clock grants as many attempts as there
are observations. -/
def publishLoop (library : JsonLibrary) (update : TaskOutputUpdate) :
    List DrainObservation → TaskRegistry → World → PublishResult
  | [], registry, world => ⟨registry, world, .einval⟩
  | seen :: more, registry, world =>
      let (result, pending) :=
        commitAfterCflowAndProcessDrain library registry world [(update, publication)] seen
      if result.status = .ok ∧ pending = 0 then ⟨result.registry, result.world, .ok⟩
      else if result.status ≠ .busy then ⟨result.registry, result.world, .einval⟩
      else publishLoop library update more result.registry result.world

/-- The outside of one publication: its allocation calls, the first attempt and the
attempts the clock grants after it. -/
structure PublishInput where
  schedule : AllocSchedule
  first : DrainObservation
  more : List DrainObservation

/-- `publish_success` for the task `index`; `setKey` is `none` for a Shell. -/
def publishSuccess (library : JsonLibrary) (registry : TaskRegistry) (world : World) (index : Nat)
    (scope : ValueStore) (setKey : Option CString) (input : PublishInput) : PublishResult :=
  match input.schedule.alloc with
  | (none, _) => ⟨registry, world, .enomem⟩
  | (some _, schedule) =>
      match readPorts library scope (outputPorts setKey) [] schedule with
      | (.error _, _) => ⟨registry, world.txnAbort publication, .einval⟩
      | (.ok typed, schedule) =>
          match prepareTaskTextOutputs world publication rootStore scope (portKeys setKey)
              schedule with
          | (staged, status, _) =>
              if status ≠ .ok then ⟨registry, staged.txnAbort publication, .einval⟩
              else
                let result := publishLoop library ⟨index, some (.object typed)⟩
                  (input.first :: input.more) registry staged
                { result with world := result.world.txnAbort publication }

/-- `publish_failure_exit`. -/
def publishFailureExit (library : JsonLibrary) (registry : TaskRegistry) (index : Nat)
    (scope : ValueStore) (schedule : AllocSchedule) : TaskRegistry :=
  match readOutput scope (.literal "shell_exit_code") 64 with
  | .error _ => registry
  | .ok text =>
      match schedule.alloc with
      | (none, _) => registry
      | (some _, schedule) =>
          (registry.setOutput library index (ascii "exit_code") (.string text.bytes) schedule).1

/-! ## What a publication does -/

/-- The outputs reached both stores: the update is merged into the slot of its task,
and the root store is `next`. -/
structure Published (registry : TaskRegistry) (world : World) (update : TaskOutputUpdate)
    (next : ValueStore) (result : PublishResult) : Prop where
  merged : TaskRegistry.OutputsMerged registry result.registry [update]
  stores_eq : result.world.stores = Function.update world.stores rootStore (some next)
  txns_eq : ∀ id, result.world.txns id = none

section Attempts

variable {library : JsonLibrary} {registry : TaskRegistry} {world staged : World}
  {root : ValueStore} {snapshot : TextSnapshot}

/-- A parallel commit of one draft. -/
theorem parallelCommit_draft (hquiet : ∀ id, world.txns id = none)
    (hroot : world.stores rootStore = some root)
    (hdrafted : Drafted world publication rootStore snapshot staged) (update : TaskOutputUpdate)
    (schedule : AllocSchedule) {result : ParallelResult}
    (hresult : parallelCommit library registry staged [(update, publication)] schedule = result) :
    (result.status = .ok → ∃ next, next.findEntry = overlay root.findEntry snapshot.net ∧
      Published registry world update next ⟨result.registry, result.world, .ok⟩) ∧
    (result.status ≠ .ok → result.registry = registry ∧ result.world = staged) := by
  have hspec := ParallelSpec.of_sound (hdrafted.sound hquiet) library registry
    [(update, publication)] schedule
  rw [hresult] at hspec
  refine ⟨fun hok => ?_, hspec.refused⟩
  obtain ⟨hmerged, hcommitted⟩ := hspec.committed hok
  obtain ⟨target, store, next, hgroup, hstore, hstores, _, hlookup⟩ := hcommitted.root
  obtain ⟨found, hfound⟩ := hgroup.live publication (by simp)
  simp only [Function.update_self, Option.some.injEq, Prod.mk.injEq] at hfound
  obtain ⟨rfl, rfl⟩ := hfound
  simp only [hdrafted.stores_eq] at hstore hstores
  obtain rfl : root = store := by simpa [hroot] using hstore
  refine ⟨next, ?_, hmerged, hstores, fun id => ?_⟩
  · simpa [Ledger.snapshotOf] using hlookup
  · rw [hcommitted.consumed]
    by_cases hid : id = publication
    · simp [hid]
    · simp [hid, hdrafted.others_eq id hid, hquiet id]

/-- The loop publishes a draft or leaves everything as it was. -/
theorem publishLoop_spec (hquiet : ∀ id, world.txns id = none)
    (hroot : world.stores rootStore = some root)
    (hdrafted : Drafted world publication rootStore snapshot staged) (update : TaskOutputUpdate)
    (attempts : List DrainObservation) {result : PublishResult}
    (hresult : publishLoop library update attempts registry staged = result) :
    (result.status = .ok → ∃ next, next.findEntry = overlay root.findEntry snapshot.net ∧
      Published registry world update next result) ∧
    (result.status ≠ .ok → result.registry = registry ∧ result.world = staged) := by
  induction attempts with
  | nil =>
      subst hresult
      exact ⟨by simp [publishLoop], fun _ => ⟨rfl, rfl⟩⟩
  | cons seen more ih =>
      rw [publishLoop] at hresult
      rcases drainedCommit_cases library registry staged [(update, publication)] seen with
        ⟨status, pending, hne, hcommit⟩ | hcommit
      · simp only [hcommit, hne, false_and, if_false] at hresult
        by_cases hbusy : status = .busy
        · simp only [hbusy, ne_eq, not_true_eq_false, if_false] at hresult
          exact ih hresult
        · simp only [ne_eq, hbusy, not_false_eq_true, if_true] at hresult
          subst hresult
          exact ⟨by simp, fun _ => ⟨rfl, rfl⟩⟩
      · generalize hparallel : parallelCommit library registry staged [(update, publication)]
          seen.schedule = committed at hcommit
        obtain ⟨hpublished, hrefused⟩ := parallelCommit_draft hquiet hroot hdrafted update
          seen.schedule hparallel
        simp only [hcommit, and_true] at hresult
        by_cases hok : committed.status = .ok
        · simp only [hok, if_true] at hresult
          subst hresult
          exact ⟨fun _ => hpublished hok, fun hne => absurd rfl hne⟩
        · obtain ⟨hregistry, hworld⟩ := hrefused hok
          simp only [hok, if_false, hregistry, hworld] at hresult
          by_cases hbusy : committed.status = .busy
          · simp only [hbusy, ne_eq, not_true_eq_false, if_false] at hresult
            exact ih hresult
          · simp only [ne_eq, hbusy, not_false_eq_true, if_true] at hresult
            subst hresult
            exact ⟨by simp, fun _ => ⟨rfl, rfl⟩⟩

end Attempts

theorem txnAbort_of_quiet {world : World} (hquiet : ∀ id, world.txns id = none) (id : Nat) :
    world.txnAbort id = world := by
  refine World.ext rfl (funext fun other => ?_)
  by_cases hother : other = id <;> simp [World.txnAbort, World.withTxn, hother, hquiet]

/-- A publication that is answered with `OK` has put every port of the task, with the
text of the scope, over the root store and merged one update into the slot of the
task.  Any other one has changed nothing. -/
theorem publishSuccess_spec {library : JsonLibrary} {registry : TaskRegistry} {world : World}
    {root : ValueStore} (hquiet : ∀ id, world.txns id = none)
    (hroot : world.stores rootStore = some root) (index : Nat) (scope : ValueStore)
    (setKey : Option CString) (input : PublishInput) {result : PublishResult}
    (hresult : publishSuccess library registry world index scope setKey input = result) :
    (result.status = .ok →
      (∀ key ∈ portKeys setKey, (scope.findEntry key).isSome = true) ∧
      ∃ next typed, next.findEntry =
          overlay root.findEntry (portWrites scope (portKeys setKey)) ∧
        Published registry world ⟨index, some (.object typed)⟩ next result) ∧
    (result.status ≠ .ok → result.registry = registry ∧ result.world = world) := by
  rw [publishSuccess] at hresult
  split at hresult
  · subst hresult
    exact ⟨by simp, fun _ => ⟨rfl, rfl⟩⟩
  split at hresult
  · subst hresult
    exact ⟨by simp, fun _ => ⟨rfl, txnAbort_of_quiet hquiet _⟩⟩
  rename_i typed rest _
  obtain ⟨hprepared, hrefused⟩ := prepareTaskTextOutputs_spec (hquiet publication) hroot scope
    (portKeys setKey) rest
  split at hresult
  rename_i staged status rest' hstaged
  rw [hstaged] at hprepared hrefused
  by_cases hok : status = .ok
  · obtain ⟨hnodup, hfound, hdrafted⟩ := hprepared hok
    rw [if_neg (not_not.mpr hok)] at hresult
    generalize hloop : publishLoop library ⟨index, some (.object typed)⟩
      (input.first :: input.more) registry staged = looped at hresult
    obtain ⟨hpublished, hunchanged⟩ := publishLoop_spec hquiet hroot hdrafted _ _ hloop
    subst hresult
    refine ⟨fun hstatus => ⟨hfound, ?_⟩, fun hstatus => ?_⟩
    · obtain ⟨next, hnext, hmerged, hstores, htxns⟩ := hpublished hstatus
      rw [Snapshot.net_writeAll_opened _ (by rwa [touchedBy_portWrites])] at hnext
      simp only [txnAbort_of_quiet htxns]
      exact ⟨next, typed, hnext, hmerged, hstores, htxns⟩
    · obtain ⟨hregistry, hworld⟩ := hunchanged hstatus
      simp only [hworld]
      exact ⟨hregistry, hdrafted.abort (hquiet publication)⟩
  · rw [if_pos hok] at hresult
    obtain rfl : staged = world := hrefused hok
    subst hresult
    exact ⟨by simp, fun _ => ⟨rfl, txnAbort_of_quiet hquiet _⟩⟩

end Praktor.Runtime
