/-
# The recovery gate of a process cohort

The branches of a parallel cohort each leave a retainer behind that owns their processes.
The outputs of the cohort may be published once every branch has ended well and every
retainer has nothing pending.  A gate record lives through all the turns in which this is
tried: it remembers the first native error, the retainers of the first sweep, the last
count of pending processes and whether the cohort has been published.

What the executor and the retainers answer is input of a turn.  Registry, stores and
branches are input too, since the gate never looks at them.
-/

import Praktor.Math.Run
import Praktor.Runtime.Publication

namespace Praktor.Runtime

open Praktor.Data Praktor.Math Praktor.Values Praktor.Workflow

/-! ## Retainers -/

/-- The status of a native call: `SALTS_OK`, `SALTS_EBUSY` or any other code. -/
inductive NativeStatus
  | ok
  | busy
  | error (code : Int)
  deriving DecidableEq, Repr

/-- A `cflow_process_retainer *` and the `impl` behind it; either may be null. -/
structure RetainerRef where
  owner : Option Nat
  impl : Option Nat
  deriving DecidableEq, Repr

/-- The two addresses of a retainer that has both. -/
def RetainerRef.identity : RetainerRef → Option (Nat × Nat)
  | ⟨some owner, some impl⟩ => some (owner, impl)
  | _ => none

/-- What `cflow_process_retainer_run_ready` answers. -/
structure RetainerReply where
  status : NativeStatus
  pending : Nat
  reaped : Nat
  deriving DecidableEq, Repr

/-- `PRAKTOR_C11_PROCESS_COHORT_MAX_RETAINERS`. -/
def maxRetainers : Nat := 32

/-- `validate_retainer_group`: the identities of a group that is valid. -/
def validateRetainerGroup (owners : Option (List RetainerRef)) (maxSteps : Nat) :
    Option (List (Nat × Nat)) :=
  match owners with
  | none => none
  | some owners =>
      if owners.length = 0 || maxSteps = 0 || owners.length > maxRetainers then none
      else
        match owners.mapM RetainerRef.identity with
        | none => none
        | some identities =>
            if (identities.map Prod.fst).Nodup ∧ (identities.map Prod.snd).Nodup then
              some identities
            else none

/-! ## The gate -/

/-- `PRAKTOR_C11_COHORT_GATE_MARKER`. -/
def gateMarker : Nat := 1346589233

/-- `praktor_c11_process_cohort_recovery`; `bound_count` is the length of `bound`. -/
structure CohortGate where
  marker : Nat
  firstNativeError : NativeStatus
  lastPending : Nat
  bound : List (Nat × Nat)
  isSealed : Bool
  deriving DecidableEq, Repr

namespace CohortGate

/-- A record that has been zeroed. -/
def zero : CohortGate := ⟨0, .ok, 0, [], false⟩

/-- `valid_cohort_gate`. -/
def valid (gate : CohortGate) : Bool := gate.marker = gateMarker

/-- The count a rejected turn reports. -/
def observed (gate : CohortGate) : Nat := if gate.valid then gate.lastPending else sizeMax

/-- `praktor_c11_process_cohort_recovery_init`. -/
def recoveryInit (gate : CohortGate) : CohortGate × ParallelStatus :=
  if gate.marker ≠ 0 ∨ gate.firstNativeError ≠ .ok then (gate, .invalid)
  else ({ gate with marker := gateMarker, isSealed := false, lastPending := sizeMax }, .ok)

/-- `validate_bound_owners`. -/
def validateBoundOwners (gate : CohortGate) (identities : List (Nat × Nat)) : Bool :=
  gate.bound = [] || identities = gate.bound

end CohortGate

/-- The variables of a sweep: the error latch, the totals, the result and how many
retainers have been driven. -/
structure Sweep where
  error : NativeStatus
  pending : Nat
  reaped : Nat
  result : ParallelStatus
  driven : Nat

namespace Sweep

/-- Add up one answer. -/
def account (sweep : Sweep) (reply : RetainerReply) : Sweep :=
  let counted := { sweep with
    pending := sweep.pending + reply.pending
    reaped := sweep.reaped + reply.reaped }
  match reply.status with
  | .error code =>
      { counted with
        error := if sweep.error = .ok then .error code else sweep.error
        result := .recovery }
  | .busy => if sweep.result = .ok then { counted with result := .busy } else counted
  | .ok =>
      if sweep.result = .ok ∧ reply.pending ≠ 0 then { counted with result := .busy } else counted

/-- The loop over the retainers; it stops when a total would overflow. -/
def run : Sweep → List RetainerReply → Sweep × Bool
  | sweep, [] => (sweep, true)
  | sweep, reply :: rest =>
      let sweep := { sweep with driven := sweep.driven + 1 }
      if reply.pending > sizeMax - sweep.pending ∨ reply.reaped > sizeMax - sweep.reaped then
        (sweep, false)
      else (sweep.account reply).run rest

end Sweep

/-- What a drain turn leaves behind: the gate, the status, the reported counts and the
retainers it drove with their answers. -/
structure DrainResult where
  gate : CohortGate
  status : ParallelStatus
  pending : Nat
  reaped : Nat
  driven : List ((Nat × Nat) × RetainerReply)

/-- `praktor_c11_workflow_parallel_drain_process_retainers`. -/
def drainProcessRetainers (gate : CohortGate) (owners : Option (List RetainerRef))
    (maxSteps : Nat) (replies : Nat × Nat → RetainerReply) : DrainResult :=
  if !gate.valid || gate.isSealed then ⟨gate, .invalid, gate.observed, 0, []⟩
  else
    match validateRetainerGroup owners maxSteps with
    | none => ⟨gate, .invalid, gate.observed, 0, []⟩
    | some identities =>
        if !gate.validateBoundOwners identities then ⟨gate, .invalid, gate.observed, 0, []⟩
        else
          let bound := { gate with bound := identities }
          match Sweep.run ⟨gate.firstNativeError, 0, 0, .ok, 0⟩ (identities.map replies) with
          | (sweep, false) =>
              ⟨{ bound with firstNativeError := sweep.error }, .invalid, gate.observed, 0,
                (identities.take sweep.driven).map fun identity => (identity, replies identity)⟩
          | (sweep, true) =>
              ⟨{ bound with firstNativeError := sweep.error, lastPending := sweep.pending },
                if sweep.error ≠ .ok then .recovery else sweep.result, sweep.pending, sweep.reaped,
                identities.map fun identity => (identity, replies identity)⟩

/-! ## Publication through the gate -/

/-- What a turn sees of the executor: the statistics if there are any, and the answer to
the wait. -/
structure ExecutorView where
  hasStats : Bool
  accepted : Nat
  rejectedFull : Nat
  rejectedClosed : Nat
  rejectedWouldBlock : Nat
  cancelled : Nat
  closed : Bool
  queued : Nat
  running : Nat
  completed : Nat
  waited : WaitStatus

/-- The arguments of a commit turn and what comes from outside.  `given` says that no
pointer is null; the flags `succeeded` are read below the number of branches. -/
structure CommitTurn where
  given : Bool
  registry : TaskRegistry
  world : World
  branches : List (TaskOutputUpdate × Nat)
  succeeded : Nat → Bool
  owners : Option (List RetainerRef)
  maxSteps : Nat
  executor : ExecutorView
  replies : Nat × Nat → RetainerReply
  schedule : AllocSchedule

/-- The length of an array argument. -/
def retainerCount (owners : Option (List RetainerRef)) : Nat := (owners.map List.length).getD 0

/-- What a commit turn leaves behind; `attempted` is the answer of
`praktor_c11_workflow_parallel_commit` if it was called. -/
structure CommitResult where
  gate : CohortGate
  registry : TaskRegistry
  world : World
  status : ParallelStatus
  pending : Nat
  driven : List ((Nat × Nat) × RetainerReply)
  attempted : Option ParallelStatus

/-- A turn that stops before the retainers. -/
def CommitTurn.stop (turn : CommitTurn) (gate : CohortGate) (status : ParallelStatus) :
    CommitResult :=
  ⟨gate, turn.registry, turn.world, status, gate.observed, [], none⟩

/-- `praktor_c11_workflow_parallel_commit_after_cflow_and_process_drains`. -/
def commitAfterCflowAndProcessDrains (library : JsonLibrary) (gate : CohortGate)
    (turn : CommitTurn) : CommitResult :=
  let count := turn.branches.length
  let seen := turn.executor
  if !turn.given || count = 0 || !gate.valid || gate.isSealed ||
      count ≠ retainerCount turn.owners then turn.stop gate .invalid
  else
    match validateRetainerGroup turn.owners turn.maxSteps with
    | none => turn.stop gate .invalid
    | some identities =>
        if !gate.validateBoundOwners identities || !seen.hasStats then turn.stop gate .invalid
        else if seen.accepted ≠ count || seen.rejectedFull ≠ 0 || seen.rejectedClosed ≠ 0 ||
            seen.rejectedWouldBlock ≠ 0 then turn.stop gate .invalid
        else if seen.cancelled ≠ 0 then turn.stop gate .cancelled
        else if !seen.closed || seen.queued ≠ 0 || seen.running ≠ 0 ||
            seen.completed ≠ seen.accepted then turn.stop gate .busy
        else
          match seen.waited with
          | .pending => turn.stop gate .busy
          | .wouldBlock => turn.stop gate .busy
          | .refused => turn.stop gate .invalid
          | .idle =>
              if gate.firstNativeError ≠ .ok then turn.stop gate .recovery
              else if !(List.range count).all turn.succeeded then turn.stop gate .failed
              else
                let drained := drainProcessRetainers gate turn.owners turn.maxSteps turn.replies
                if drained.status ≠ .ok then
                  ⟨drained.gate, turn.registry, turn.world, drained.status, drained.pending,
                    drained.driven, none⟩
                else
                  let commit := parallelCommit library turn.registry turn.world turn.branches
                    turn.schedule
                  ⟨{ drained.gate with
                      isSealed := drained.gate.isSealed ||
                        commit.status = .ok || commit.status = .invariant },
                    commit.registry, commit.world, commit.status, drained.pending, drained.driven,
                    some commit.status⟩

/-! ## What a sweep finds -/

/-- The retainer reported an error that is not a request to try again. -/
def RetainerReply.Failed (reply : RetainerReply) : Prop := ∃ code, reply.status = .error code

/-- Nothing is left behind the retainer. -/
def RetainerReply.Quiescent (reply : RetainerReply) : Prop :=
  reply.status = .ok ∧ reply.pending = 0

/-- A sweep that went over all the answers. -/
structure SweepSpec (sweep : Sweep) (replies : List RetainerReply) (last : Sweep) : Prop where
  pending_eq : last.pending = sweep.pending + (replies.map RetainerReply.pending).sum
  error_iff : last.error = .ok ↔ sweep.error = .ok ∧ ∀ reply ∈ replies, ¬ reply.Failed
  ok_iff : last.result = .ok ↔ sweep.result = .ok ∧ ∀ reply ∈ replies, reply.Quiescent
  recovery : last.result = .recovery →
    sweep.result = .recovery ∨ ∃ reply ∈ replies, reply.Failed
  result : last.result = sweep.result ∨ last.result = .busy ∨ last.result = .recovery

/-- One answer. -/
theorem Sweep.account_spec (sweep : Sweep) (reply : RetainerReply) :
    SweepSpec sweep [reply] (sweep.account reply) := by
  obtain ⟨status, pending, reaped⟩ := reply
  cases status with
  | error code =>
      refine ⟨by simp [account], ?_, ?_, ?_, by simp [account]⟩
      · by_cases herror : sweep.error = .ok <;> simp [account, herror, RetainerReply.Failed]
      · simp [account, RetainerReply.Quiescent]
      · simp [RetainerReply.Failed]
  | busy =>
      by_cases hok : sweep.result = .ok
      · simp only [account, hok, if_true]
        exact ⟨by simp, by simp [RetainerReply.Failed], by simp [RetainerReply.Quiescent], by simp,
          by simp⟩
      · simp only [account, hok, if_false]
        exact ⟨by simp, by simp [RetainerReply.Failed], by simp [hok], .inl, by simp⟩
  | ok =>
      by_cases hbusy : sweep.result = .ok ∧ pending ≠ 0
      · simp only [account, if_pos hbusy]
        exact ⟨by simp, by simp [RetainerReply.Failed],
          by simp [RetainerReply.Quiescent, hbusy.2], by simp, by simp⟩
      · simp only [account, if_neg hbusy]
        refine ⟨by simp, by simp [RetainerReply.Failed], ?_, .inl, by simp⟩
        simp only [List.mem_singleton, forall_eq, RetainerReply.Quiescent, true_and]
        exact ⟨fun hok => ⟨hok, by_contra fun hne => hbusy ⟨hok, hne⟩⟩, And.left⟩

/-- One answer and then the others. -/
theorem SweepSpec.trans {sweep next last : Sweep} {first rest : List RetainerReply}
    (hfirst : SweepSpec sweep first next) (hrest : SweepSpec next rest last) :
    SweepSpec sweep (first ++ rest) last where
  pending_eq := by
    rw [hrest.pending_eq, hfirst.pending_eq, List.map_append, List.sum_append, Nat.add_assoc]
  error_iff := by
    rw [hrest.error_iff, hfirst.error_iff, List.forall_mem_append, and_assoc]
  ok_iff := by
    rw [hrest.ok_iff, hfirst.ok_iff, List.forall_mem_append, and_assoc]
  recovery hlast := by
    rcases hrest.recovery hlast with hnext | ⟨reply, hreply, hfailed⟩
    · rcases hfirst.recovery hnext with hstart | ⟨reply, hreply, hfailed⟩
      · exact .inl hstart
      · exact .inr ⟨reply, List.mem_append_left _ hreply, hfailed⟩
    · exact .inr ⟨reply, List.mem_append_right _ hreply, hfailed⟩
  result := by
    rcases hrest.result with hsame | hother
    · rw [hsame]
      exact hfirst.result
    · exact .inr hother

theorem Sweep.run_spec {sweep last : Sweep} {replies : List RetainerReply}
    (hrun : sweep.run replies = (last, true)) : SweepSpec sweep replies last := by
  induction replies generalizing sweep with
  | nil =>
      obtain rfl : sweep = last := by simpa [run] using hrun
      exact ⟨by simp, by simp, by simp, .inl, .inl rfl⟩
  | cons reply rest ih =>
      simp only [run] at hrun
      split_ifs at hrun
      · simp at hrun
      · obtain ⟨hpending, herror, hok, hrecovery, hresult⟩ :=
          account_spec { sweep with driven := sweep.driven + 1 } reply
        have hfirst : SweepSpec sweep [reply]
            (account { sweep with driven := sweep.driven + 1 } reply) :=
          ⟨hpending, herror, hok, hrecovery, hresult⟩
        exact hfirst.trans (ih hrun)

/-- The totals of the answers can be counted. -/
def Countable (replies : List RetainerReply) : Prop :=
  (replies.map RetainerReply.pending).sum ≤ sizeMax ∧
    (replies.map RetainerReply.reaped).sum ≤ sizeMax

theorem Sweep.account_totals (sweep : Sweep) (reply : RetainerReply) :
    (sweep.account reply).pending = sweep.pending + reply.pending ∧
      (sweep.account reply).reaped = sweep.reaped + reply.reaped := by
  rw [account]
  split
  · exact ⟨rfl, rfl⟩
  · split <;> exact ⟨rfl, rfl⟩
  · split <;> exact ⟨rfl, rfl⟩

theorem Sweep.account_driven (sweep : Sweep) (reply : RetainerReply) :
    (sweep.account reply).driven = sweep.driven := by
  rw [account]
  split
  · rfl
  · split <;> rfl
  · split <;> rfl

/-- The totals after the answers `done`, counted on from a sweep. -/
def Sweep.Counts (sweep : Sweep) (done : List RetainerReply) : Prop :=
  sweep.pending + (done.map RetainerReply.pending).sum ≤ sizeMax ∧
    sweep.reaped + (done.map RetainerReply.reaped).sum ≤ sizeMax

theorem Sweep.counts_cons {sweep next : Sweep} {reply : RetainerReply}
    (hpending : next.pending = sweep.pending + reply.pending)
    (hreaped : next.reaped = sweep.reaped + reply.reaped) (done : List RetainerReply) :
    sweep.Counts (reply :: done) ↔ next.Counts done := by
  simp only [Counts, List.map_cons, List.sum_cons, hpending, hreaped, Nat.add_assoc]

/-- A sweep that went over all the answers could count them. -/
theorem Sweep.run_counts {sweep last : Sweep} {replies : List RetainerReply}
    (hrun : sweep.run replies = (last, true)) (hcounts : sweep.Counts []) :
    sweep.Counts replies := by
  induction replies generalizing sweep with
  | nil => exact hcounts
  | cons reply rest ih =>
      simp only [run] at hrun
      split_ifs at hrun with hoverflow
      · simp at hrun
      obtain ⟨hpending, hreaped⟩ :=
        Sweep.account_totals { sweep with driven := sweep.driven + 1 } reply
      have hmore := fun done => @Sweep.counts_cons sweep _ reply hpending hreaped done
      rw [hmore]
      refine ih hrun ((hmore []).mp ?_)
      simp only [Counts, List.map_nil, List.sum_nil, List.map_cons, List.sum_cons] at hcounts ⊢
      omega

/-- A sweep that broke off: the answer after `done` could not be counted any more. -/
theorem Sweep.run_overflow {sweep last : Sweep} {replies : List RetainerReply}
    (hrun : sweep.run replies = (last, false)) (hcounts : sweep.Counts []) :
    ∃ done reply rest, replies = done ++ reply :: rest ∧
      last.driven = sweep.driven + (done.length + 1) ∧ sweep.Counts done ∧
      ¬ sweep.Counts (done ++ [reply]) ∧
      (last.error = .ok ↔ sweep.error = .ok ∧ ∀ reply ∈ done, ¬ reply.Failed) := by
  induction replies generalizing sweep with
  | nil => simp [run] at hrun
  | cons reply rest ih =>
      simp only [run] at hrun
      by_cases hoverflow : reply.pending > sizeMax - sweep.pending ∨
          reply.reaped > sizeMax - sweep.reaped
      · rw [if_pos hoverflow] at hrun
        obtain rfl := congrArg Prod.fst hrun
        refine ⟨[], reply, rest, rfl, rfl, hcounts, ?_, by simp⟩
        simp only [Counts, List.map_nil, List.sum_nil, List.nil_append, List.map_cons,
          List.sum_cons] at hcounts ⊢
        omega
      · rw [if_neg hoverflow] at hrun
        obtain ⟨hpending, hreaped⟩ :=
          Sweep.account_totals { sweep with driven := sweep.driven + 1 } reply
        have hmore := fun done => @Sweep.counts_cons sweep _ reply hpending hreaped done
        have hfirst : (account { sweep with driven := sweep.driven + 1 } reply).Counts [] := by
          rw [← hmore]
          simp only [Counts, List.map_nil, List.sum_nil, List.map_cons, List.sum_cons] at hcounts ⊢
          omega
        obtain ⟨done, stop, later, hsplit, hdriven, hdone, hstop, herror⟩ := ih hrun hfirst
        refine ⟨reply :: done, stop, later, by rw [hsplit, List.cons_append], ?_,
          (hmore done).mpr hdone, fun hcount => hstop ((hmore _).mp hcount), ?_⟩
        · rw [hdriven, account_driven, List.length_cons]
          simp only
          omega
        · rw [herror, (account_spec _ reply).error_iff, List.forall_mem_singleton,
            List.forall_mem_cons, and_assoc]

/-- A sweep that broke off: it went over the answers `done`, and the one after them could
not be counted. -/
structure OverflowSpec (error : NativeStatus) (replies : List RetainerReply)
    (last : NativeStatus) (driven : List RetainerReply) : Prop where
  split : ∃ done reply rest, replies = done ++ reply :: rest ∧ driven = done ++ [reply] ∧
    Countable done ∧ ¬ Countable (done ++ [reply]) ∧
    (last = .ok ↔ error = .ok ∧ ∀ reply ∈ done, ¬ reply.Failed)

theorem counts_fresh_iff (error : NativeStatus) (done : List RetainerReply) :
    (Sweep.mk error 0 0 .ok 0).Counts done ↔ Countable done := by
  simp [Sweep.Counts, Countable]

/-- An overflow shows that the totals could not be counted. -/
theorem OverflowSpec.not_countable {error last : NativeStatus}
    {replies driven : List RetainerReply} (hspec : OverflowSpec error replies last driven) :
    ¬ Countable replies := by
  obtain ⟨done, reply, rest, rfl, _, _, hoverflow, _⟩ := hspec.split
  intro hcountable
  simp only [Countable, List.map_append, List.sum_append, List.map_cons, List.sum_cons,
    List.map_nil, List.sum_nil] at hoverflow hcountable
  omega

/-! ## What a drain turn does -/

/-- The outcomes of a drain turn. -/
inductive DrainOutcome (gate : CohortGate) (owners : Option (List RetainerRef)) (maxSteps : Nat)
    (replies : Nat × Nat → RetainerReply) : DrainResult → Prop
  | refused (hrefused : ∀ identities, gate.valid = true → gate.isSealed = false →
        validateRetainerGroup owners maxSteps = some identities →
        ¬ (gate.bound = [] ∨ identities = gate.bound)) :
      DrainOutcome gate owners maxSteps replies ⟨gate, .invalid, gate.observed, 0, []⟩
  | overflowed (identities : List (Nat × Nat)) (error : NativeStatus)
      (driven : List ((Nat × Nat) × RetainerReply)) (hvalid : gate.valid = true)
      (hopen : gate.isSealed = false)
      (hgroup : validateRetainerGroup owners maxSteps = some identities)
      (hbound : gate.bound = [] ∨ identities = gate.bound)
      (hoverflow : OverflowSpec gate.firstNativeError (identities.map replies) error
        (driven.map Prod.snd)) :
      DrainOutcome gate owners maxSteps replies
        ⟨{ gate with bound := identities, firstNativeError := error }, .invalid, gate.observed, 0,
          driven⟩
  | swept (identities : List (Nat × Nat)) (last : Sweep) (hvalid : gate.valid = true)
      (hopen : gate.isSealed = false)
      (hgroup : validateRetainerGroup owners maxSteps = some identities)
      (hbound : gate.bound = [] ∨ identities = gate.bound)
      (hcountable : Countable (identities.map replies))
      (hspec : SweepSpec ⟨gate.firstNativeError, 0, 0, .ok, 0⟩ (identities.map replies) last) :
      DrainOutcome gate owners maxSteps replies
        ⟨{ gate with bound := identities, firstNativeError := last.error,
                     lastPending := last.pending },
          if last.error ≠ .ok then .recovery else last.result, last.pending, last.reaped,
          identities.map fun identity => (identity, replies identity)⟩

theorem drainProcessRetainers_outcome (gate : CohortGate) (owners : Option (List RetainerRef))
    (maxSteps : Nat) (replies : Nat × Nat → RetainerReply) :
    DrainOutcome gate owners maxSteps replies
      (drainProcessRetainers gate owners maxSteps replies) := by
  rw [drainProcessRetainers]
  split
  · rename_i hclosed
    refine .refused fun identities hvalid hopen _ => ?_
    simp [hvalid, hopen] at hclosed
  rename_i hready
  obtain ⟨hvalid, hopen⟩ : gate.valid = true ∧ gate.isSealed = false := by simpa using hready
  split
  · rename_i hnone
    refine .refused fun identities _ _ hgroup => ?_
    simp [hnone] at hgroup
  rename_i identities hgroup
  split
  · rename_i hother
    refine .refused fun found _ _ hfound => ?_
    obtain rfl : identities = found := Option.some.inj (hgroup.symm.trans hfound)
    simpa [CohortGate.validateBoundOwners] using hother
  rename_i hidentities
  have hbound : gate.bound = [] ∨ identities = gate.bound := by
    simpa [CohortGate.validateBoundOwners, or_iff_not_imp_left] using hidentities
  simp only
  split
  · rename_i sweep hsweep
    obtain ⟨done, reply, rest, hsplit, hdriven, hdone, hoverflow, herror⟩ :=
      Sweep.run_overflow hsweep ((counts_fresh_iff _ []).mpr (by simp [Countable]))
    rw [counts_fresh_iff] at hdone hoverflow
    refine .overflowed identities _ _ hvalid hopen hgroup hbound
      ⟨done, reply, rest, hsplit, ?_, hdone, hoverflow, herror⟩
    rw [List.map_map, hdriven, Nat.zero_add]
    show (identities.take (done.length + 1)).map replies = done ++ [reply]
    rw [List.map_take, hsplit, List.take_append, List.take_of_length_le (Nat.le_succ _)]
    simp
  · rename_i sweep hsweep
    have hcounts := Sweep.run_counts hsweep ((counts_fresh_iff _ []).mpr (by simp [Countable]))
    exact .swept identities sweep hvalid hopen hgroup hbound ((counts_fresh_iff _ _).mp hcounts)
      (Sweep.run_spec hsweep)

/-! ## What a commit turn does -/

/-- The cohort has come to rest and has succeeded: the executor is closed and idle, it ran
every branch and nothing else, and every branch ended well. -/
structure CommitTurn.Settled (turn : CommitTurn) : Prop where
  accepted_eq : turn.executor.accepted = turn.branches.length
  completed_eq : turn.executor.completed = turn.branches.length
  rejected_eq : turn.executor.rejectedFull = 0 ∧ turn.executor.rejectedClosed = 0 ∧
    turn.executor.rejectedWouldBlock = 0
  cancelled_eq : turn.executor.cancelled = 0
  closed_eq : turn.executor.closed = true
  idle_eq : turn.executor.queued = 0 ∧ turn.executor.running = 0 ∧ turn.executor.waited = .idle
  succeeded : ∀ branch < turn.branches.length, turn.succeeded branch = true

/-- The outcomes of a commit turn. -/
inductive CommitOutcome (library : JsonLibrary) (gate : CohortGate) (turn : CommitTurn) :
    CommitResult → Prop
  | stopped (status : ParallelStatus) (hok : status ≠ .ok) (hinvariant : status ≠ .invariant) :
      CommitOutcome library gate turn (turn.stop gate status)
  | drained (result : DrainResult)
      (hdrain : DrainOutcome gate turn.owners turn.maxSteps turn.replies result)
      (hok : result.status ≠ .ok) :
      CommitOutcome library gate turn
        ⟨result.gate, turn.registry, turn.world, result.status, result.pending, result.driven, none⟩
  | attempted (result : DrainResult) (commit : ParallelResult) (hsettled : turn.Settled)
      (hcount : turn.branches.length = retainerCount turn.owners)
      (hdrain : DrainOutcome gate turn.owners turn.maxSteps turn.replies result)
      (hok : result.status = .ok)
      (hcommit : commit =
        parallelCommit library turn.registry turn.world turn.branches turn.schedule) :
      CommitOutcome library gate turn
        ⟨{ result.gate with
            isSealed := result.gate.isSealed || commit.status = .ok || commit.status = .invariant },
          commit.registry, commit.world, commit.status, result.pending, result.driven,
          some commit.status⟩

theorem commitAfterCflowAndProcessDrains_outcome (library : JsonLibrary) (gate : CohortGate)
    (turn : CommitTurn) :
    CommitOutcome library gate turn (commitAfterCflowAndProcessDrains library gate turn) := by
  simp only [commitAfterCflowAndProcessDrains]
  split
  · exact .stopped _ (by simp) (by simp)
  rename_i harguments
  split
  · exact .stopped _ (by simp) (by simp)
  split
  · exact .stopped _ (by simp) (by simp)
  split
  · exact .stopped _ (by simp) (by simp)
  rename_i hadmission
  split
  · exact .stopped _ (by simp) (by simp)
  rename_i hcancelled
  split
  · exact .stopped _ (by simp) (by simp)
  rename_i hrunning
  split
  · exact .stopped _ (by simp) (by simp)
  · exact .stopped _ (by simp) (by simp)
  · exact .stopped _ (by simp) (by simp)
  rename_i hidle
  split
  · exact .stopped _ (by simp) (by simp)
  split
  · exact .stopped _ (by simp) (by simp)
  rename_i hsucceeded
  have hdrain := drainProcessRetainers_outcome gate turn.owners turn.maxSteps turn.replies
  split
  · rename_i hrefused
    exact .drained _ hdrain hrefused
  · rename_i hok
    simp only [Bool.or_eq_true, decide_eq_true_eq, not_or, not_not, Bool.not_eq_true', ne_eq,
      Bool.not_eq_false] at harguments hadmission hrunning hcancelled hok
    obtain ⟨⟨⟨haccepted, hfull⟩, hclosed⟩, hblock⟩ := hadmission
    obtain ⟨⟨⟨hshut, hqueued⟩, hactive⟩, hcompleted⟩ := hrunning
    refine .attempted _ _ ⟨haccepted, hcompleted.trans haccepted, ⟨hfull, hclosed, hblock⟩,
      hcancelled, hshut, ⟨hqueued, hactive, hidle⟩, fun branch hbranch => ?_⟩ harguments.2 hdrain hok
      rfl
    have hall : (List.range turn.branches.length).all turn.succeeded = true := by
      simpa using hsucceeded
    exact List.all_eq_true.mp hall branch (List.mem_range.mpr hbranch)

end Praktor.Runtime
