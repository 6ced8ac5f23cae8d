/-
# A process cohort over all its turns

The owner of a cohort drives one gate through any number of turns.  The history of these
turns shows which retainers were driven, what they answered, which count was reported and
whether a publication was attempted.  Three latches of the gate make the history safe: the
seal of a publication, the first native error, and the retainers of the first sweep.
-/

import Praktor.Runtime.CohortGate

namespace Praktor.Runtime

open Praktor.Data Praktor.Math Praktor.Values Praktor.Workflow

/-- The calls on a gate. -/
inductive GateRequest
  | recoveryInit
  | drain (owners : Option (List RetainerRef)) (maxSteps : Nat)
      (replies : Nat × Nat → RetainerReply)
  | commit (turn : CommitTurn)

/-- The visible part of a call: its status, the count it reported, the retainers it drove
and the answer of the publication it attempted. -/
structure GateReply where
  status : ParallelStatus
  pending : Option Nat
  driven : List ((Nat × Nat) × RetainerReply)
  attempted : Option ParallelStatus

/-- A call with its reply. -/
abbrev GateEntry := GateRequest × GateReply

/-- One call on the gate. -/
def CohortGate.step (library : JsonLibrary) (gate : CohortGate) :
    GateRequest → CohortGate × GateReply
  | .recoveryInit =>
      let (next, status) := gate.recoveryInit
      (next, ⟨status, none, [], none⟩)
  | .drain owners maxSteps replies =>
      let result := drainProcessRetainers gate owners maxSteps replies
      (result.gate, ⟨result.status, some result.pending, result.driven, none⟩)
  | .commit turn =>
      let result := commitAfterCflowAndProcessDrains library gate turn
      (result.gate, ⟨result.status, some result.pending, result.driven, result.attempted⟩)

/-- The totals of a call can be counted in a `size_t`. -/
def GateRequest.Countable : GateRequest → Prop
  | .recoveryInit => True
  | .drain owners maxSteps replies => ∀ identities,
      validateRetainerGroup owners maxSteps = some identities →
        Runtime.Countable (identities.map replies)
  | .commit turn => ∀ identities,
      validateRetainerGroup turn.owners turn.maxSteps = some identities →
        Runtime.Countable (identities.map turn.replies)

/-! ## One call -/

/-- The retainers a sweep drives, with their answers. -/
def drivenPairs (identities : List (Nat × Nat)) (replies : Nat × Nat → RetainerReply) :
    List ((Nat × Nat) × RetainerReply) :=
  identities.map fun identity => (identity, replies identity)

/-- What the owner may rely on when a publication is attempted: the cohort has settled, and
every retainer was driven in this very call and is quiescent. -/
def AttemptedAtRest (entry : GateEntry) : Prop :=
  ∃ turn identities, entry.1 = .commit turn ∧ turn.Settled ∧
    validateRetainerGroup turn.owners turn.maxSteps = some identities ∧
    turn.branches.length = retainerCount turn.owners ∧
    entry.2.driven = drivenPairs identities turn.replies ∧
    ∀ pair ∈ entry.2.driven, pair.2.Quiescent

/-- The total of the answers of a call. -/
def GateReply.total (reply : GateReply) : Nat :=
  (reply.driven.map fun pair => pair.2.pending).sum

/-- The moves of a gate. -/
inductive GateMove (gate : CohortGate) (request : GateRequest) : CohortGate → GateReply → Prop
  | quiet (status : ParallelStatus) (pending : Option Nat)
      (hpending : ∀ count, pending = some count → count = gate.observed) :
      GateMove gate request gate ⟨status, pending, [], none⟩
  | initialised (hmarker : gate.marker = 0) (herror : gate.firstNativeError = .ok) :
      GateMove gate request
        { gate with marker := gateMarker, isSealed := false, lastPending := sizeMax }
        ⟨.ok, none, [], none⟩
  | swept (reply : GateReply) (error : NativeStatus) (isSealed : Bool)
      (hvalid : gate.valid = true) (hopen : gate.isSealed = false) (hdriven : reply.driven ≠ [])
      (hbound : gate.bound = [] ∨ reply.driven.map Prod.fst = gate.bound)
      (hpending : reply.pending = some reply.total)
      (herror : error = .ok ↔
        gate.firstNativeError = .ok ∧ ∀ pair ∈ reply.driven, ¬ pair.2.Failed)
      (hsealed : isSealed = true ↔
        reply.attempted = some .ok ∨ reply.attempted = some .invariant)
      (hattempted : reply.attempted ≠ none →
        AttemptedAtRest (request, reply) ∧ gate.firstNativeError = .ok) :
      GateMove gate request
        { gate with bound := reply.driven.map Prod.fst, firstNativeError := error,
                    lastPending := reply.total, isSealed := isSealed } reply

theorem validateRetainerGroup_ne_nil {owners : Option (List RetainerRef)} {maxSteps : Nat}
    {identities : List (Nat × Nat)}
    (hgroup : validateRetainerGroup owners maxSteps = some identities) : identities ≠ [] := by
  rw [validateRetainerGroup.eq_def] at hgroup
  split at hgroup
  · simp at hgroup
  rename_i refs
  split at hgroup
  · simp at hgroup
  rename_i hlimits
  split at hgroup
  · simp at hgroup
  rename_i found hfound
  split_ifs at hgroup
  obtain rfl := Option.some.inj hgroup
  rintro rfl
  cases refs with
  | nil => simp at hlimits
  | cons first rest => simp [List.mapM_cons, Option.bind_eq_some_iff] at hfound

@[simp] theorem drivenPairs_fst (identities : List (Nat × Nat))
    (replies : Nat × Nat → RetainerReply) :
    (drivenPairs identities replies).map Prod.fst = identities := by
  rw [drivenPairs, List.map_map]
  exact List.map_id _

@[simp] theorem drivenPairs_snd (identities : List (Nat × Nat))
    (replies : Nat × Nat → RetainerReply) :
    (drivenPairs identities replies).map Prod.snd = identities.map replies := by
  rw [drivenPairs, List.map_map]
  rfl

/-- A statement about the answers, read from the pairs. -/
theorem forall_drivenPairs (holds : RetainerReply → Prop) (identities : List (Nat × Nat))
    (replies : Nat × Nat → RetainerReply) :
    (∀ pair ∈ drivenPairs identities replies, holds pair.2) ↔
      ∀ reply ∈ identities.map replies, holds reply := by
  rw [← drivenPairs_snd, List.forall_mem_map]

section Call

variable {gate : CohortGate} {request : GateRequest} {owners : Option (List RetainerRef)}
  {maxSteps : Nat} {replies : Nat × Nat → RetainerReply}

/-- A complete sweep as a move, with or without an attempt to publish. -/
theorem GateMove.of_sweep {identities : List (Nat × Nat)} {last : Sweep}
    (hvalid : gate.valid = true) (hopen : gate.isSealed = false)
    (hgroup : validateRetainerGroup owners maxSteps = some identities)
    (hbound : gate.bound = [] ∨ identities = gate.bound)
    (hspec : SweepSpec ⟨gate.firstNativeError, 0, 0, .ok, 0⟩ (identities.map replies) last)
    (status : ParallelStatus) (attempted : Option ParallelStatus) (isSealed : Bool)
    (hsealed : isSealed = true ↔ attempted = some .ok ∨ attempted = some .invariant)
    (hattempted : attempted ≠ none →
      AttemptedAtRest (request,
        ⟨status, some last.pending, drivenPairs identities replies, attempted⟩) ∧
      gate.firstNativeError = .ok) :
    GateMove gate request
      { gate with bound := identities, firstNativeError := last.error,
                  lastPending := last.pending, isSealed := isSealed }
      ⟨status, some last.pending, drivenPairs identities replies, attempted⟩ := by
  have htotal : last.pending = GateReply.total
      ⟨status, some last.pending, drivenPairs identities replies, attempted⟩ := by
    have hsum : ((drivenPairs identities replies).map fun pair => pair.2.pending) =
        ((drivenPairs identities replies).map Prod.snd).map RetainerReply.pending := by
      rw [List.map_map]
      rfl
    rw [GateReply.total, hsum, drivenPairs_snd, hspec.pending_eq, Nat.zero_add]
  have hmove := @GateMove.swept gate request
    ⟨status, some last.pending, drivenPairs identities replies, attempted⟩ last.error isSealed
    hvalid hopen (by simpa [drivenPairs] using validateRetainerGroup_ne_nil hgroup)
    (by simpa using hbound) (congrArg some htotal)
    (hspec.error_iff.trans (and_congr_right' (forall_drivenPairs _ _ _).symm)) hsealed hattempted
  rw [← htotal, drivenPairs_fst] at hmove
  exact hmove

/-- A drain turn whose totals can be counted. -/
theorem GateMove.of_drain {result : DrainResult}
    (houtcome : DrainOutcome gate owners maxSteps replies result)
    (hcountable : ∀ identities, validateRetainerGroup owners maxSteps = some identities →
      Countable (identities.map replies)) :
    GateMove gate request result.gate
      ⟨result.status, some result.pending, result.driven, none⟩ := by
  cases houtcome with
  | refused => exact .quiet _ _ (by simp)
  | overflowed identities error driven _ _ hgroup _ hoverflow =>
      exact absurd (hcountable identities hgroup) hoverflow.not_countable
  | swept identities last hvalid hopen hgroup hbound _ hspec =>
      have hmove := @GateMove.of_sweep gate request owners maxSteps replies identities last hvalid
        hopen hgroup hbound hspec (if last.error ≠ .ok then .recovery else last.result) none false
        (by simp) (by simp)
      rw [← hopen] at hmove
      exact hmove

/-- A turn that published or tried to. -/
theorem GateMove.of_attempt {turn : CommitTurn} {result : DrainResult} {commit : ParallelResult}
    (hsettled : turn.Settled) (hcount : turn.branches.length = retainerCount turn.owners)
    (houtcome : DrainOutcome gate turn.owners turn.maxSteps turn.replies result)
    (hok : result.status = .ok) :
    GateMove gate (.commit turn)
      { result.gate with
        isSealed := result.gate.isSealed || commit.status = .ok || commit.status = .invariant }
      ⟨commit.status, some result.pending, result.driven, some commit.status⟩ := by
  cases houtcome with
  | refused => cases hok
  | overflowed identities error driven _ _ hgroup _ hoverflow => cases hok
  | swept identities last hvalid hopen hgroup hbound _ hspec =>
      have herror : last.error = .ok := by
        by_contra hne
        simp [hne] at hok
      have hresult : last.result = .ok := by simpa [herror] using hok
      have hquiescent := (hspec.ok_iff.mp hresult).2
      rw [← forall_drivenPairs RetainerReply.Quiescent] at hquiescent
      exact GateMove.of_sweep hvalid hopen hgroup hbound hspec commit.status (some commit.status)
        (gate.isSealed || commit.status = .ok || commit.status = .invariant) (by simp [hopen])
        fun _ => ⟨⟨turn, identities, rfl, hsettled, hgroup, hcount, rfl, hquiescent⟩,
          (hspec.error_iff.mp herror).1⟩

end Call

/-- Every call on a gate is one of the moves. -/
theorem CohortGate.step_move (library : JsonLibrary) (gate : CohortGate) (request : GateRequest)
    (hcountable : request.Countable) :
    GateMove gate request (gate.step library request).1 (gate.step library request).2 := by
  cases request with
  | recoveryInit =>
      simp only [step, recoveryInit]
      split
      · exact .quiet _ _ (by simp)
      · rename_i hpristine
        obtain ⟨hmarker, herror⟩ := not_or.mp hpristine
        exact .initialised (not_not.mp hmarker) (not_not.mp herror)
  | drain owners maxSteps replies =>
      exact GateMove.of_drain (drainProcessRetainers_outcome gate owners maxSteps replies)
        hcountable
  | commit turn =>
      simp only [step]
      have houtcome := commitAfterCflowAndProcessDrains_outcome library gate turn
      generalize commitAfterCflowAndProcessDrains library gate turn = result at houtcome
      cases houtcome with
      | stopped status hok hinvariant => exact .quiet _ _ (by simp [CommitTurn.stop])
      | drained result hdrain hok => exact GateMove.of_drain hdrain hcountable
      | attempted result commit hsettled hcount hdrain hok hcommit =>
          exact GateMove.of_attempt hsettled hcount hdrain hok

/-! ## All the calls -/

/-- The publication went through or broke off after its first half; it is not tried again. -/
def GateReply.Finished (reply : GateReply) : Prop :=
  reply.attempted = some .ok ∨ reply.attempted = some .invariant

/-- Some retainer answered with an error. -/
def GateReply.SawError (reply : GateReply) : Prop := ∃ pair ∈ reply.driven, pair.2.Failed

/-- The total of the last sweep; before any sweep the count is unknown. -/
def lastObserved (history : List GateEntry) : Nat :=
  history.foldl (fun seen entry => if entry.2.driven = [] then seen else entry.2.total) sizeMax

/-- The publications that went through. -/
def publications (history : List GateEntry) : List GateEntry :=
  history.filter fun entry => entry.2.attempted = some .ok

/-- What the gate remembers of its history. -/
structure GateFacts (history : List GateEntry) (gate : CohortGate) : Prop where
  pristine : gate.marker = 0 → gate.isSealed = false
  sealed_iff : gate.isSealed = true ↔ ∃ entry ∈ history, entry.2.Finished
  published : (publications history).length ≤ if gate.isSealed then 1 else 0
  error_iff : gate.firstNativeError = .ok ↔ ∀ entry ∈ history, ¬ entry.2.SawError
  bound : ∀ entry ∈ history, entry.2.driven ≠ [] → entry.2.driven.map Prod.fst = gate.bound
  observed : gate.observed = lastObserved history

/-- A history in which publication happened at most once and only at rest. -/
structure GateSafe (history : List GateEntry) : Prop where
  once : (publications history).length ≤ 1
  atRest : ∀ entry ∈ history, entry.2.attempted ≠ none → AttemptedAtRest entry
  latched : ∀ before entry after, history = before ++ entry :: after →
    (∃ prior ∈ before, prior.2.SawError) → entry.2.attempted = none
  finished : ∀ before entry after, history = before ++ entry :: after →
    (∃ prior ∈ before, prior.2.Finished) → entry.2.driven = [] ∧ entry.2.attempted = none
  reported : ∀ before entry after, history = before ++ entry :: after →
    ∀ count, entry.2.pending = some count → count = lastObserved (before ++ [entry])
  retainers : ∀ first ∈ history, ∀ second ∈ history, first.2.driven ≠ [] →
    second.2.driven ≠ [] → first.2.driven.map Prod.fst = second.2.driven.map Prod.fst

@[simp] theorem lastObserved_append (history : List GateEntry) (entry : GateEntry) :
    lastObserved (history ++ [entry]) =
      if entry.2.driven = [] then lastObserved history else entry.2.total := by
  simp [lastObserved]

@[simp] theorem publications_append (history : List GateEntry) (entry : GateEntry) :
    publications (history ++ [entry]) =
      publications history ++ if entry.2.attempted = some .ok then [entry] else [] := by
  simp only [publications, List.filter_append, List.filter_cons, List.filter_nil,
    decide_eq_true_eq]

section History

variable {history : List GateEntry} {gate next : CohortGate} {request : GateRequest}
  {reply : GateReply}

/-- A call that drives nothing and attempts nothing leaves the memory of the gate as it is. -/
theorem GateFacts.of_quiet (hfacts : GateFacts history gate) (status : ParallelStatus)
    (pending : Option Nat) :
    GateFacts (history ++ [(request, ⟨status, pending, [], none⟩)]) gate := by
  obtain ⟨hpristine, hsealed, hpublished, herror, hbound, hobserved⟩ := hfacts
  refine ⟨hpristine, ?_, by simpa using hpublished, ?_, ?_, by simpa using hobserved⟩
  · simpa [or_imp, GateReply.Finished, or_and_right, exists_or] using hsealed
  · simpa [or_imp, forall_and, GateReply.SawError] using herror
  · simpa [or_imp, forall_and] using hbound

/-- The memory of the gate is kept by every move. -/
theorem GateFacts.move (hfacts : GateFacts history gate)
    (hmove : GateMove gate request next reply) : GateFacts (history ++ [(request, reply)]) next := by
  cases hmove with
  | quiet status pending hpending => exact hfacts.of_quiet status pending
  | initialised hmarker herror =>
      obtain ⟨hpristine, hsealed, hpublished, herrors, hbound, hobserved⟩ :=
        @GateFacts.of_quiet _ _ request hfacts .ok none
      have hopen := hpristine hmarker
      refine ⟨fun _ => rfl, ?_, ?_, herrors, hbound, ?_⟩
      · simpa [hopen] using hsealed
      · simpa [hopen] using hpublished
      · rw [← hobserved]
        simp [CohortGate.observed, CohortGate.valid, hmarker, gateMarker]
  | swept _ error isSealed hvalid hopen hdriven hbound hpending herror hsealed hattempted =>
      obtain ⟨hpristine, hsealedBefore, hpublished, herrors, hboundBefore, hobserved⟩ := hfacts
      have hfresh : ∀ entry ∈ history, ¬ entry.2.Finished := fun entry hentry hfinished => by
        have hclosed := hsealedBefore.mpr ⟨entry, hentry, hfinished⟩
        rw [hopen] at hclosed
        cases hclosed
      have hmarked : gate.marker ≠ 0 := fun hmarker => by
        rw [CohortGate.valid, hmarker] at hvalid
        cases hvalid
      refine ⟨fun hmarker => absurd hmarker hmarked, ?_, ?_, ?_, ?_, ?_⟩
      · rw [hsealed]
        constructor
        · exact fun hfinished => ⟨_, List.mem_append_right _ (List.mem_singleton_self _), hfinished⟩
        · rintro ⟨entry, hentry, hfinished⟩
          rcases List.mem_append.mp hentry with hbefore | hlast
          · exact absurd hfinished (hfresh entry hbefore)
          · rw [List.mem_singleton.mp hlast] at hfinished
            exact hfinished
      · have hnone : publications history = [] := by simpa [hopen] using hpublished
        rw [publications_append, hnone]
        split_ifs with hpublishedNow hclosed hclosed
        · exact le_rfl
        · exact absurd (hsealed.mpr (.inl hpublishedNow)) hclosed
        · exact Nat.zero_le _
        · exact Nat.zero_le _
      · rw [herror, herrors, List.forall_mem_append]
        simp [GateReply.SawError]
      · intro entry hentry hentryDriven
        rcases List.mem_append.mp hentry with hbefore | hlast
        · have hsame := hboundBefore entry hbefore hentryDriven
          rcases hbound with hunbound | hkept
          · rw [hunbound, List.map_eq_nil_iff] at hsame
            exact absurd hsame hentryDriven
          · rw [hsame, hkept]
        · rw [List.mem_singleton.mp hlast]
      · rw [lastObserved_append, if_neg hdriven]
        exact if_pos hvalid

/-- What one more move adds to a safe history. -/
theorem GateSafe.move (hsafe : GateSafe history) (hfacts : GateFacts history gate)
    (hmove : GateMove gate request next reply) : GateSafe (history ++ [(request, reply)]) := by
  have hnext := hfacts.move hmove
  refine ⟨?_, ?_, ?_, ?_, ?_, ?_⟩
  · exact hnext.published.trans (by split <;> simp)
  · rw [List.forall_mem_append]
    refine ⟨hsafe.atRest, ?_⟩
    rw [List.forall_mem_singleton]
    cases hmove with
    | quiet status pending hpending => simp
    | initialised hmarker herror => simp
    | swept _ error isSealed hvalid hopen hdriven hbound hpending herror hsealed hattempted =>
        exact fun hsome => (hattempted hsome).1
  · apply forall_split_append _ hsafe.latched
    rintro ⟨prior, hprior, hfailed⟩
    cases hmove with
    | quiet status pending hpending => rfl
    | initialised hmarker herror => rfl
    | swept _ error isSealed hvalid hopen hdriven hbound hpending herror hsealed hattempted =>
        by_contra hsome
        exact hfacts.error_iff.mp (hattempted hsome).2 prior hprior hfailed
  · apply forall_split_append _ hsafe.finished
    intro hfinished
    cases hmove with
    | quiet status pending hpending => exact ⟨rfl, rfl⟩
    | initialised hmarker herror => exact ⟨rfl, rfl⟩
    | swept _ error isSealed hvalid hopen hdriven hbound hpending herror hsealed hattempted =>
        have hclosed := hfacts.sealed_iff.mpr hfinished
        rw [hopen] at hclosed
        cases hclosed
  · apply forall_split_append _ hsafe.reported
    intro count hcount
    rw [lastObserved_append, ← hfacts.observed]
    cases hmove with
    | quiet status pending hpending => simpa using hpending count hcount
    | initialised hmarker herror => cases hcount
    | swept _ error isSealed hvalid hopen hdriven hbound hpending herror hsealed hattempted =>
        rw [if_neg hdriven]
        exact (Option.some.inj (hpending.symm.trans hcount)).symm
  · intro first hfirst second hsecond hfirstDriven hsecondDriven
    rw [hnext.bound first hfirst hfirstDriven, hnext.bound second hsecond hsecondDriven]

end History

/-- Whatever the owner asks for and whatever the executor and the retainers answer, the
outputs of a cohort are published at most once, only at rest and never after an error. -/
theorem CohortGate.run_gateSafe (library : JsonLibrary) {history : List GateEntry}
    {gate : CohortGate} (hrun : Run (CohortGate.step library) .zero history gate)
    (hcountable : ∀ entry ∈ history, entry.1.Countable) : GateSafe history := by
  suffices hboth : GateFacts history gate ∧ GateSafe history from hboth.2
  revert hcountable
  apply hrun.invariant fun history gate => (∀ entry ∈ history, entry.1.Countable) →
    GateFacts history gate ∧ GateSafe history
  · intro _
    exact ⟨⟨fun _ => rfl, by simp [zero], by simp [publications], by simp [zero], by simp, rfl⟩,
      ⟨by simp [publications], by simp, by simp, by simp, by simp, by simp⟩⟩
  · intro history gate request _ ih hcountable
    rw [List.forall_mem_append, List.forall_mem_singleton] at hcountable
    obtain ⟨hfacts, hsafe⟩ := ih hcountable.1
    have hmove := gate.step_move library request hcountable.2
    exact ⟨hfacts.move hmove, hsafe.move hfacts hmove⟩

/-- An executor that ran two branches and was closed. -/
def pairedExecutor : ExecutorView := ⟨true, 2, 0, 0, 0, 0, true, 0, 0, 2, .idle⟩

/-- A commit turn for the two branches of `pairedBranches`; every retainer has `pending`
processes left. -/
def pairedTurn (pending : Nat) : CommitTurn :=
  ⟨true, freshPair, drive Ledger.step Ledger.empty Ledger.paired |>.world, pairedBranches,
    fun _ => true, some [⟨some 1, some 11⟩, ⟨some 2, some 12⟩], 8, pairedExecutor,
    fun _ => ⟨.ok, pending, 0⟩, []⟩

/-- The cohort is published in the second of its three commit turns. -/
def pairedTurns : List GateRequest :=
  [.recoveryInit, .commit (pairedTurn 1), .commit (pairedTurn 0), .commit (pairedTurn 0)]

theorem countable_pairedTurn {pending : Nat} (hpending : pending ≤ 1) :
    (GateRequest.commit (pairedTurn pending)).Countable := by
  intro identities hgroup
  have hsame : validateRetainerGroup (some [⟨some 1, some 11⟩, ⟨some 2, some 12⟩]) 8 =
      some [(1, 11), (2, 12)] := by decide
  obtain rfl := Option.some.inj (hsame.symm.trans hgroup)
  constructor
  · simp only [pairedTurn, List.map_cons, List.map_nil, List.sum_cons, List.sum_nil, sizeMax]
    omega
  · simp [pairedTurn]

theorem CohortGate.run_gateSafe_paired :
    (answers (CohortGate.step inPlace) .zero pairedTurns).map GateReply.status =
        [.ok, .busy, .ok, .invalid] ∧
      GateSafe (pairedTurns.zip (answers (CohortGate.step inPlace) .zero pairedTurns)) := by
  refine ⟨by decide, run_gateSafe inPlace (run_drive _ _ pairedTurns) fun entry hentry => ?_⟩
  have hrequest : entry.1 ∈ pairedTurns := (List.of_mem_zip hentry).1
  simp only [pairedTurns, List.mem_cons, List.not_mem_nil, or_false] at hrequest
  rcases hrequest with hinit | hfirst | hsecond | hthird
  · rw [hinit]
    exact trivial
  · rw [hfirst]
    exact countable_pairedTurn le_rfl
  · rw [hsecond]
    exact countable_pairedTurn (Nat.zero_le 1)
  · rw [hthird]
    exact countable_pairedTurn (Nat.zero_le 1)

end Praktor.Runtime
