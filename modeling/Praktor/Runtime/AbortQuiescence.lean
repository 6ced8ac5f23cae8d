/-
# Aborting a cohort whose retainers are busy

An abort decides from two reports of its sweep: the status, folded over all retainers, and
the total of the pending counts.  It looks at the status only to tell an error from a
request to try again, and at the total to see whether anything is left.  The two reports
can disagree: a retainer may ask to be driven again and report nothing pending.

This module says what an abort that waits for quiescence does, and which answers of the
retainers make the call miss it.
-/

import Praktor.Runtime.Settlement

namespace Praktor.Runtime

open Praktor.Data Praktor.Math Praktor.Values Praktor.Workflow

namespace OwnerState

/-- No staged transaction and no task has changed. -/
structure Untouched (before after : OwnerState) : Prop where
  world_eq : after.world = before.world
  registry_eq : after.registry = before.registry
  tasks_eq : after.dag.tasks = before.dag.tasks

/-- An abort that waits: it settles tasks only after a sweep that was not busy and left
nothing pending, and it answers `BUSY` and touches nothing when a retainer of its sweep
was busy and no error is latched. -/
structure AbortWaits (before : OwnerState) (result : SettleResult) : Prop where
  quiescent : ¬ Untouched before result.state → ∃ drained, result.drained = some drained ∧
    (drained.status = .ok ∨ drained.status = .recovery) ∧ drained.pending = 0
  busy : ∀ drained, result.drained = some drained →
    (∃ pair ∈ drained.driven, pair.2.status = .busy) → drained.gate.firstNativeError = .ok →
    result.status = .busy ∧ Untouched before result.state

/-- The call comes to its drain turn. -/
structure AbortReady (state : OwnerState) (cohort : OwnerCohort) (turn : SettleTurn) : Prop where
  preflight : state.preflightCohort cohort turn.mode turn.maxSteps = true
  hasStats : turn.executor.hasStats = true
  accepted_eq : turn.executor.accepted = cohort.branches.length
  rejected_eq : turn.executor.rejectedFull = 0 ∧ turn.executor.rejectedClosed = 0 ∧
    turn.executor.rejectedWouldBlock = 0
  closed_eq : turn.executor.closed = true
  idle_eq : turn.executor.running = 0 ∧ turn.executor.queued = 0 ∧ turn.executor.waited = .idle
  ended_eq : turn.executor.completed + turn.executor.cancelled = turn.executor.accepted
  cancelled_eq : turn.executor.cancelled =
    if turn.mode = .abortFailed then 0
    else cohort.branches.countP OwnerBranch.cancelledBeforeRun

/-- The answers of a sweep in which a retainer is busy, none reports an error, and the total
is not one the abort waits for: nothing is pending, the total is the mark of an unknown
count, or the totals cannot be counted. -/
inductive Misleading (replies : List RetainerReply) : Prop
  | counted (hcountable : Countable replies) (hclean : ∀ reply ∈ replies, ¬ reply.Failed)
      (hbusy : ∃ reply ∈ replies, reply.status = .busy)
      (htotal : (replies.map RetainerReply.pending).sum = 0 ∨
        (replies.map RetainerReply.pending).sum = sizeMax)
  | overflowed (done : List RetainerReply) (reply : RetainerReply) (rest : List RetainerReply)
      (hsplit : replies = done ++ reply :: rest) (hdone : Countable done)
      (hoverflow : ¬ Countable (done ++ [reply])) (hclean : ∀ reply ∈ done, ¬ reply.Failed)
      (hbusy : ∃ answer ∈ done ++ [reply], answer.status = .busy)

/-- The call sweeps retainers whose answers mislead it. -/
def Misled (state : OwnerState) (cohort : OwnerCohort) (turn : SettleTurn) : Prop :=
  AbortReady state cohort turn ∧ state.gate.valid = true ∧ state.gate.firstNativeError = .ok ∧
    ∃ identities, validateRetainerGroup cohort.retainers turn.maxSteps = some identities ∧
      (state.gate.bound = [] ∨ identities = state.gate.bound) ∧
      Misleading (identities.map turn.replies)

section Sweeps

variable {replies : List RetainerReply}

theorem countable_of_append {first second : List RetainerReply}
    (hcountable : Countable (first ++ second)) : Countable first := by
  simp only [Countable, List.map_append, List.sum_append] at hcountable ⊢
  omega

/-- What was counted ends before the answer that cannot be counted. -/
theorem length_le_of_overflow {done done' rest rest' : List RetainerReply}
    {reply reply' : RetainerReply} (hsplit : done ++ reply :: rest = done' ++ reply' :: rest')
    (hoverflow : ¬ Countable (done ++ [reply])) (hdone' : Countable done') :
    done'.length ≤ done.length := by
  by_contra hlonger
  have hshort : done ++ [reply] <+: done ++ reply :: rest := ⟨rest, by simp⟩
  have hlong : done' <+: done ++ reply :: rest := ⟨reply' :: rest', hsplit.symm⟩
  have hlength : (done ++ [reply]).length ≤ done'.length := by
    simp only [List.length_append, List.length_singleton]
    omega
  obtain ⟨more, hmore⟩ := List.prefix_of_prefix_length_le hshort hlong hlength
  rw [← hmore] at hdone'
  exact hoverflow (countable_of_append hdone')

/-- The answer at which a sweep breaks off is determined. -/
theorem overflow_unique {done done' rest rest' : List RetainerReply} {reply reply' : RetainerReply}
    (hsplit : done ++ reply :: rest = done' ++ reply' :: rest') (hdone : Countable done)
    (hdone' : Countable done') (hoverflow : ¬ Countable (done ++ [reply]))
    (hoverflow' : ¬ Countable (done' ++ [reply'])) : done = done' ∧ reply = reply' := by
  have hlength : done.length = done'.length :=
    Nat.le_antisymm (length_le_of_overflow hsplit.symm hoverflow' hdone)
      (length_le_of_overflow hsplit hoverflow hdone')
  obtain ⟨hsame, htail⟩ := List.append_inj hsplit hlength
  exact ⟨hsame, (List.cons.inj htail).1⟩

/-- A sweep that was counted does not overflow. -/
theorem Misleading.of_countable (hmisleading : Misleading replies) (hcountable : Countable replies) :
    (∀ reply ∈ replies, ¬ reply.Failed) ∧ (∃ reply ∈ replies, reply.status = .busy) ∧
      ((replies.map RetainerReply.pending).sum = 0 ∨
        (replies.map RetainerReply.pending).sum = sizeMax) := by
  cases hmisleading with
  | counted _ hclean hbusy htotal => exact ⟨hclean, hbusy, htotal⟩
  | overflowed done reply rest hsplit hdone hoverflow hclean hbusy =>
      have hspec : OverflowSpec .ok replies .ok (done ++ [reply]) :=
        ⟨done, reply, rest, hsplit, rfl, hdone, hoverflow, by simpa using hclean⟩
      exact absurd hcountable hspec.not_countable

/-- Answers that mislead contain a busy one. -/
theorem Misleading.busy (hmisleading : Misleading replies) :
    ∃ reply ∈ replies, reply.status = .busy := by
  cases hmisleading with
  | counted _ _ hbusy => exact hbusy
  | overflowed done reply rest hsplit _ _ _ hbusy =>
      obtain ⟨answer, hanswer, hstatus⟩ := hbusy
      refine ⟨answer, ?_, hstatus⟩
      rw [hsplit, List.append_cons]
      exact List.mem_append_left rest hanswer

/-- A sweep that broke off misleads when it met a busy retainer and no error before. -/
theorem Misleading.iff_of_overflow {error last : NativeStatus} {driven : List RetainerReply}
    (hspec : OverflowSpec error replies last driven) :
    (error = .ok ∧ Misleading replies) ↔ (∃ reply ∈ driven, reply.status = .busy) ∧ last = .ok := by
  obtain ⟨done, reply, rest, hsplit, hdriven, hdone, hoverflow, hlast⟩ := hspec.split
  rw [hlast, hdriven]
  constructor
  · rintro ⟨herror, hmisleading⟩
    cases hmisleading with
    | counted hcountable => exact absurd hcountable hspec.not_countable
    | overflowed done' reply' rest' hsplit' hdone' hoverflow' hclean hbusy =>
        obtain ⟨rfl, rfl⟩ := overflow_unique (hsplit.symm.trans hsplit') hdone hdone' hoverflow
          hoverflow'
        exact ⟨hbusy, herror, hclean⟩
  · rintro ⟨hbusy, herror, hclean⟩
    exact ⟨herror, .overflowed done reply rest hsplit hdone hoverflow hclean hbusy⟩

end Sweeps

/-! ## The drain turn -/

/-- Some retainer of a drain turn asked to be driven again. -/
def BusyIn (drained : DrainResult) : Prop := ∃ pair ∈ drained.driven, pair.2.status = .busy

section Turns

variable {gate : CohortGate} {owners : Option (List RetainerRef)} {maxSteps : Nat}
  {replies : Nat × Nat → RetainerReply} {drained : DrainResult}

/-- How the status of a drain turn goes with the answers of its retainers. -/
structure DrainFacts (drained : DrainResult) : Prop where
  status_cases : drained.status = .invalid ∨ drained.status = .ok ∨ drained.status = .busy ∨
    drained.status = .recovery
  clean : drained.status = .busy → drained.gate.firstNativeError = .ok
  source : drained.status = .busy → drained.pending = 0 → BusyIn drained
  status_eq : drained.status ≠ .invalid → BusyIn drained → drained.gate.firstNativeError = .ok →
    drained.status = .busy

theorem busyIn_map (identities : List (Nat × Nat)) :
    (∃ pair ∈ identities.map fun identity => (identity, replies identity), pair.2.status = .busy) ↔
      ∃ reply ∈ identities.map replies, reply.status = .busy := by
  simp

/-- A sweep without errors that is not through and left nothing pending met a busy
retainer. -/
theorem busy_of_not_ok {error : NativeStatus} {answers : List RetainerReply} {last : Sweep}
    (hspec : SweepSpec ⟨error, 0, 0, .ok, 0⟩ answers last)
    (hclean : ∀ reply ∈ answers, ¬ reply.Failed) (hresult : last.result ≠ .ok)
    (hpending : last.pending = 0) : ∃ reply ∈ answers, reply.status = .busy := by
  have hrestless : ¬ ∀ reply ∈ answers, reply.Quiescent := fun hall =>
    hresult (hspec.ok_iff.mpr ⟨rfl, hall⟩)
  push Not at hrestless
  obtain ⟨reply, hreply, hnot⟩ := hrestless
  have hzero : reply.pending = 0 := by
    have hsum := hspec.pending_eq.symm.trans hpending
    simp only [Nat.zero_add] at hsum
    exact List.sum_eq_zero_iff_forall_eq_nat.mp hsum _ (List.mem_map_of_mem hreply)
  refine ⟨reply, hreply, ?_⟩
  cases hstatus : reply.status with
  | ok => exact absurd ⟨hstatus, hzero⟩ hnot
  | busy => rfl
  | error code => exact absurd ⟨code, hstatus⟩ (hclean reply hreply)

theorem drainFacts_of_outcome (houtcome : DrainOutcome gate owners maxSteps replies drained) :
    DrainFacts drained := by
  cases houtcome with
  | refused => exact ⟨.inl rfl, by simp, by simp, by simp⟩
  | overflowed => exact ⟨.inl rfl, by simp, by simp, by simp⟩
  | swept identities last _ _ _ _ _ hspec =>
      have hbusyIn := @busyIn_map replies identities
      by_cases herror : last.error = .ok
      · have hclean := (hspec.error_iff.mp herror).2
        have hresult : last.result = .ok ∨ last.result = .busy := by
          rcases hspec.result with hresult | hresult | hresult
          · exact .inl hresult
          · exact .inr hresult
          · rcases hspec.recovery hresult with hstart | ⟨reply, hreply, hfailed⟩
            · cases hstart
            · exact absurd hfailed (hclean reply hreply)
        simp only [herror, ne_eq, not_true_eq_false, if_false]
        refine ⟨.inr (hresult.imp id .inl), fun _ => rfl, ?_, ?_⟩
        · intro hbusy hpending
          rw [BusyIn, hbusyIn]
          refine busy_of_not_ok hspec hclean (fun hok => ?_) hpending
          simp [hok] at hbusy
        · intro _ hbusy _
          obtain ⟨reply, hreply, hstatus⟩ := hbusyIn.mp hbusy
          refine hresult.resolve_left fun hok => ?_
          have hquiescent := (hspec.ok_iff.mp hok).2 reply hreply
          rw [RetainerReply.Quiescent, hstatus] at hquiescent
          cases hquiescent.1
      · simp only [ne_eq, herror, not_false_eq_true, if_true]
        exact ⟨by simp, by simp, by simp, fun _ _ hok => absurd hok herror⟩

end Turns

/-! ## The abort -/

section Abort

variable {state : OwnerState} {cohort : OwnerCohort} {turn : SettleTurn}

/-- The abort does not wait for this drain turn. -/
def Overlooks (drained : DrainResult) : Prop :=
  BusyIn drained ∧ drained.gate.firstNativeError = .ok ∧
    (drained.status = .invalid ∨ drained.pending = sizeMax ∨ drained.pending = 0)

theorem settleAborted_status_ne_busy (drained : DrainResult) :
    (state.settleAborted cohort turn drained).status ≠ .busy ∧
      (state.settleAborted cohort turn drained).drained = some drained := by
  simp only [settleAborted]
  split
  · exact ⟨by simp, rfl⟩
  · refine ⟨?_, rfl⟩
    simp only
    split <;> simp

/-- A drain turn after which nothing is touched. -/
theorem abortWaits_of_swept {status : ParallelStatus} {pending : Nat} {drained : DrainResult}
    {gate : CohortGate} :
    AbortWaits state ⟨{ state with gate := gate }, status, pending, some drained⟩ ↔
      (BusyIn drained → drained.gate.firstNativeError = .ok → status = .busy) := by
  have huntouched : Untouched state { state with gate := gate } := ⟨rfl, rfl, rfl⟩
  constructor
  · exact fun hwaits hbusy herror => (hwaits.busy drained rfl hbusy herror).1
  · intro hstatus
    refine ⟨fun htouched => absurd huntouched htouched, fun found hfound hbusy herror => ?_⟩
    obtain rfl : drained = found := Option.some.inj hfound
    exact ⟨hstatus hbusy herror, huntouched⟩

theorem drainAborted_waits_iff {drained : DrainResult}
    (hdrained : drainProcessRetainers state.gate cohort.retainers turn.maxSteps turn.replies =
      drained) :
    AbortWaits state (state.drainAborted cohort turn) ↔ ¬ Overlooks drained := by
  have hfacts : DrainFacts drained := by
    rw [← hdrained]
    exact drainFacts_of_outcome (drainProcessRetainers_outcome ..)
  simp only [drainAborted, hdrained]
  by_cases hinvalid : drained.status = .invalid
  · rw [if_pos hinvalid, abortWaits_of_swept]
    simp [Overlooks, hinvalid]
  rw [if_neg hinvalid]
  by_cases hunknown : drained.pending = sizeMax
  · rw [if_pos hunknown, abortWaits_of_swept]
    simp [Overlooks, hunknown]
  rw [if_neg hunknown]
  by_cases hpending : drained.pending = 0
  · rw [if_neg (not_not.mpr hpending)]
    obtain ⟨hstatus, hsame⟩ := @settleAborted_status_ne_busy { state with gate := drained.gate }
      cohort turn drained
    constructor
    · rintro hwaits ⟨hbusy, herror, -⟩
      exact hstatus (hwaits.busy drained hsame hbusy herror).1
    · intro hclear
      refine ⟨fun _ => ⟨drained, hsame, ?_, hpending⟩, fun found hfound hbusy herror => ?_⟩
      · rcases hfacts.status_cases with hcase | hcase | hcase | hcase
        · exact absurd hcase hinvalid
        · exact .inl hcase
        · exact absurd ⟨hfacts.source hcase hpending, hfacts.clean hcase, .inr (.inr hpending)⟩ hclear
        · exact .inr hcase
      · obtain rfl : drained = found := Option.some.inj (hsame.symm.trans hfound)
        exact absurd ⟨hbusy, herror, .inr (.inr hpending)⟩ hclear
  · rw [if_pos hpending, abortWaits_of_swept]
    refine ⟨fun _ hoverlooks => ?_, fun _ hbusy herror => ?_⟩
    · rcases hoverlooks.2.2 with hcase | hcase | hcase
      · exact hinvalid hcase
      · exact hunknown hcase
      · exact hpending hcase
    · simp [hfacts.status_eq hinvalid hbusy herror]

/-- A drain turn is overlooked when the answers of its retainers mislead. -/
theorem overlooks_iff {gate : CohortGate} (hopen : gate.isSealed = false)
    {owners : Option (List RetainerRef)} {maxSteps : Nat} {replies : Nat × Nat → RetainerReply}
    {drained : DrainResult} (houtcome : DrainOutcome gate owners maxSteps replies drained) :
    Overlooks drained ↔ gate.valid = true ∧ gate.firstNativeError = .ok ∧
      ∃ identities, validateRetainerGroup owners maxSteps = some identities ∧
        (gate.bound = [] ∨ identities = gate.bound) ∧ Misleading (identities.map replies) := by
  cases houtcome with
  | refused hrefused =>
      refine ⟨fun hoverlooks => ?_, fun ⟨hvalid, _, identities, hgroup, hbound, _⟩ => ?_⟩
      · obtain ⟨pair, hpair, _⟩ := hoverlooks.1
        cases hpair
      · exact absurd hbound (hrefused identities hvalid hopen hgroup)
  | overflowed identities error driven hvalid _ hgroup hbound hoverflow =>
      have hiff := Misleading.iff_of_overflow hoverflow
      have hdriven : BusyIn ⟨{ gate with bound := identities, firstNativeError := error }, .invalid,
          gate.observed, 0, driven⟩ ↔ ∃ reply ∈ driven.map Prod.snd, reply.status = .busy := by
        simp only [BusyIn, List.mem_map, exists_exists_and_eq_and]
      constructor
      · rintro ⟨hbusy, herror, -⟩
        obtain ⟨hstart, hmisleading⟩ := hiff.mpr ⟨hdriven.mp hbusy, herror⟩
        exact ⟨hvalid, hstart, identities, hgroup, hbound, hmisleading⟩
      · rintro ⟨-, hstart, found, hfound, -, hmisleading⟩
        obtain rfl : identities = found := Option.some.inj (hgroup.symm.trans hfound)
        obtain ⟨hbusy, herror⟩ := hiff.mp ⟨hstart, hmisleading⟩
        exact ⟨hdriven.mpr hbusy, herror, .inl rfl⟩
  | swept identities last hvalid _ hgroup hbound hcountable hspec =>
      have hbusyIn := @busyIn_map replies identities
      have htotal : last.pending = ((identities.map replies).map RetainerReply.pending).sum := by
        rw [hspec.pending_eq, Nat.zero_add]
      constructor
      · rintro ⟨hbusy, herror, hreport⟩
        obtain ⟨hstart, hclean⟩ := hspec.error_iff.mp herror
        refine ⟨hvalid, hstart, identities, hgroup, hbound,
          .counted hcountable hclean (hbusyIn.mp hbusy) ?_⟩
        rw [← htotal]
        rcases hreport with hinvalid | hunknown | hzero
        · simp only [show last.error = .ok from herror, ne_eq, not_true_eq_false, if_false]
            at hinvalid
          rcases hspec.result with hresult | hresult | hresult <;> simp [hresult] at hinvalid
        · exact .inr hunknown
        · exact .inl hzero
      · rintro ⟨-, hstart, found, hfound, -, hmisleading⟩
        obtain rfl : identities = found := Option.some.inj (hgroup.symm.trans hfound)
        obtain ⟨hclean, hbusy, hsum⟩ := hmisleading.of_countable hcountable
        rw [← htotal] at hsum
        exact ⟨hbusyIn.mpr hbusy, hspec.error_iff.mpr ⟨hstart, hclean⟩,
          .inr (hsum.symm)⟩

/-- An abort ends before its drain turn or comes to it with transactions and tasks as they
were. -/
theorem settleCohort_abort_cases (library : JsonLibrary)
    (hmode : turn.mode = .abortFailed ∨ turn.mode = .abortCancelled) :
    (¬ AbortReady state cohort turn ∧ ∃ status pending,
      state.settleCohort library cohort turn = ⟨state, status, pending, none⟩) ∨
    (AbortReady state cohort turn ∧ ∃ dag, dag.tasks = state.dag.tasks ∧
      state.settleCohort library cohort turn =
        ({ state with dag := dag } : OwnerState).drainAborted cohort turn) := by
  have hpublish : turn.mode ≠ .publish := by rcases hmode with hmode | hmode <;> simp [hmode]
  rw [settleCohort]
  by_cases hpre : state.preflightCohort cohort turn.mode turn.maxSteps = true
  · simp only [hpre, Bool.not_true, Bool.false_eq_true, if_false, hpublish, settleAbort]
    split
    · rename_i hstats
      refine .inl ⟨fun hready => ?_, _, _, rfl⟩
      simp [hready.hasStats] at hstats
    rename_i hstats
    split
    · rename_i hadmission
      refine .inl ⟨fun hready => ?_, _, _, rfl⟩
      simp [hready.accepted_eq, hready.rejected_eq] at hadmission
    rename_i hadmission
    split
    · rename_i hrunning
      refine .inl ⟨fun hready => ?_, _, _, rfl⟩
      have hended := hready.ended_eq
      simp only [hready.closed_eq, hready.idle_eq, Bool.or_eq_true, decide_eq_true_eq,
        Bool.not_true, Bool.false_eq_true, ne_eq, not_true_eq_false, false_or, gt_iff_lt] at hrunning
      omega
    rename_i hrunning
    split
    · rename_i hwaited
      exact .inl ⟨fun hready => by simp [hready.idle_eq] at hwaited, _, _, rfl⟩
    · rename_i hwaited
      exact .inl ⟨fun hready => by simp [hready.idle_eq] at hwaited, _, _, rfl⟩
    · rename_i hwaited
      exact .inl ⟨fun hready => by simp [hready.idle_eq] at hwaited, _, _, rfl⟩
    rename_i hwaited
    simp only [Bool.or_eq_true, decide_eq_true_eq, not_or, not_not, Bool.not_eq_true', ne_eq,
      Bool.not_eq_false, not_lt, gt_iff_lt] at hstats hadmission hrunning
    obtain ⟨⟨⟨haccepted, hfull⟩, hclosed⟩, hblock⟩ := hadmission
    obtain ⟨⟨⟨⟨⟨hshut, hactive⟩, hqueued⟩, _⟩, _⟩, hended⟩ := hrunning
    have hready (hcancelled : turn.executor.cancelled = if turn.mode = .abortFailed then 0
        else cohort.branches.countP OwnerBranch.cancelledBeforeRun) : AbortReady state cohort turn :=
      ⟨hpre, hstats, haccepted, ⟨hfull, hclosed, hblock⟩, hshut, ⟨hactive, hqueued, hwaited⟩, hended,
        hcancelled⟩
    split
    · rename_i hfailed
      split
      · rename_i hcancelled
        refine .inl ⟨fun hready => hcancelled ?_, _, _, rfl⟩
        rw [hready.cancelled_eq, if_pos hfailed]
      · rename_i hcancelled
        have hstopped : (state.dag.stop .failed).2 = .ok ∧
            (state.dag.stop .failed).1.tasks = state.dag.tasks := ⟨rfl, rfl⟩
        refine .inr ⟨hready (by rw [if_pos hfailed]; exact not_not.mp hcancelled), _,
          hstopped.2, ?_⟩
        rfl
    · rename_i hfailed
      split
      · rename_i hcount
        refine .inl ⟨fun hready => hcount ?_, _, _, rfl⟩
        rw [hready.cancelled_eq, if_neg hfailed]
      · rename_i hcount
        exact .inr ⟨hready (by rw [if_neg hfailed]; exact (not_not.mp hcount).symm), state.dag, rfl,
          rfl⟩
  · simp only [hpre, Bool.not_false, if_true]
    exact .inl ⟨fun hready => hpre hready.preflight, _, _, rfl⟩

/-- Closing admission is not a change of a transaction or a task. -/
theorem abortWaits_withDag {dag : DagState} (htasks : dag.tasks = state.dag.tasks)
    {result : SettleResult} : AbortWaits { state with dag := dag } result ↔ AbortWaits state result := by
  have huntouched (after : OwnerState) :
      Untouched { state with dag := dag } after ↔ Untouched state after := by
    constructor
    · rintro ⟨hworld, hregistry, hsame⟩
      exact ⟨hworld, hregistry, hsame.trans htasks⟩
    · rintro ⟨hworld, hregistry, hsame⟩
      exact ⟨hworld, hregistry, hsame.trans htasks.symm⟩
  constructor
  · rintro ⟨hquiescent, hbusy⟩
    simp only [huntouched] at hquiescent hbusy
    exact ⟨hquiescent, hbusy⟩
  · rintro ⟨hquiescent, hbusy⟩
    simp only [← huntouched] at hquiescent hbusy
    exact ⟨hquiescent, hbusy⟩

end Abort

/-- An abort waits for quiescence unless the answers of its sweep mislead it. -/
theorem settleCohort_abortWaits_iff (library : JsonLibrary) (state : OwnerState)
    (cohort : OwnerCohort) (turn : SettleTurn)
    (hmode : turn.mode = .abortFailed ∨ turn.mode = .abortCancelled) :
    AbortWaits state (state.settleCohort library cohort turn) ↔ ¬ Misled state cohort turn := by
  rcases settleCohort_abort_cases library hmode with
    ⟨hready, status, pending, hresult⟩ | ⟨hready, dag, htasks, hresult⟩
  · rw [hresult]
    refine iff_of_true ⟨fun htouched => absurd ⟨rfl, rfl, rfl⟩ htouched, ?_⟩ fun hmisled =>
      hready hmisled.1
    intro drained hdrained
    cases hdrained
  · have hopen := (preflight_of_check hready.preflight).unsealed
    have houtcome := drainProcessRetainers_outcome state.gate cohort.retainers turn.maxSteps
      turn.replies
    rw [hresult, ← abortWaits_withDag htasks, drainAborted_waits_iff rfl, overlooks_iff hopen houtcome,
      Misled]
    simp only [hready, true_and]

theorem settleCohort_abortWaits_iff_paired :
    AbortWaits pairedOwner
      (pairedOwner.settleCohort inPlace pairedCohort (pairedSettle .abortFailed)) := by
  rw [settleCohort_abortWaits_iff inPlace pairedOwner pairedCohort (pairedSettle .abortFailed)
    (.inl rfl)]
  rintro ⟨-, -, -, identities, -, -, hmisleading⟩
  obtain ⟨reply, hreply, hstatus⟩ := hmisleading.busy
  obtain ⟨identity, -, rfl⟩ := List.mem_map.mp hreply
  cases hstatus

/-- Both retainers ask to be driven again and report nothing pending. -/
def busySettle : SettleTurn := { pairedSettle .abortFailed with replies := fun _ => ⟨.busy, 0, 0⟩ }

/-- The cohort of `busySettle` is aborted although both retainers are busy. -/
theorem not_abortWaits_busySettle :
    (pairedOwner.settleCohort inPlace pairedCohort busySettle).status = .ok ∧
      ((pairedOwner.settleCohort inPlace pairedCohort busySettle).state.world.txns 0).isNone ∧
      ¬ AbortWaits pairedOwner (pairedOwner.settleCohort inPlace pairedCohort busySettle) := by
  have hstatus : (pairedOwner.settleCohort inPlace pairedCohort busySettle).status = .ok := by decide
  refine ⟨hstatus, by decide, fun hwaits => ?_⟩
  have hdrained : (pairedOwner.settleCohort inPlace pairedCohort busySettle).drained =
      some ⟨⟨gateMarker, .ok, 0, [(1, 11), (2, 12)], false⟩, .busy, 0, 0,
        [((1, 11), ⟨.busy, 0, 0⟩), ((2, 12), ⟨.busy, 0, 0⟩)]⟩ := by rfl
  have hbusy := (hwaits.busy _ hdrained ⟨((1, 11), ⟨.busy, 0, 0⟩), by simp, rfl⟩ rfl).1
  rw [hstatus] at hbusy
  cases hbusy

end OwnerState

end Praktor.Runtime
