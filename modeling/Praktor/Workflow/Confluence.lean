/-
# Scheduling is confluent

While a run continues, the task table is a function of the phases: a counter is the number
of edges from tasks that are not finished.  So the order in which tasks are claimed and
finished does not show in the state it leads to.

Two consequences: two reserved tasks may be finished in either order, and two runs that only
claim and finish with success end, whatever their limits, with the same table, each after
finishing every task once in an order that respects the dependencies.
-/

import Praktor.Workflow.DagProgress

namespace Praktor.Workflow

open Praktor.Data Praktor.Math Praktor.Math.Multigraph

namespace DagState

/-! ## The table is a function of the phases -/

section Determined

variable {graph : Dependencies} {maxActive maxActive' : Nat} {first second : DagState}

/-- Two continuing states with the same phases have the same table. -/
theorem Consistent.tasks_eq (hfirst : Consistent graph maxActive first)
    (hsecond : Consistent graph maxActive' second) (hterminal : first.terminal = .continuing)
    (hterminal' : second.terminal = .continuing) (hphases : phases first.tasks = phases second.tasks) :
    first.tasks = second.tasks := by
  have hfinished : isFinished first.tasks = isFinished second.tasks := by
    funext task
    rw [isFinished, isFinished, hphases]
  apply List.ext_getElem?
  intro task
  have hphase : first.tasks[task]?.map DagTaskEntry.phase =
      second.tasks[task]?.map DagTaskEntry.phase := by
    rw [← getElem?_phases, ← getElem?_phases, hphases]
  cases hrow : first.tasks[task]? with
  | none =>
      rw [hrow, Option.map_none, eq_comm, Option.map_eq_none_iff] at hphase
      rw [hphase]
  | some row =>
      rw [hrow, Option.map_some, eq_comm, Option.map_eq_some_iff] at hphase
      obtain ⟨other, hother, hsame⟩ := hphase
      have hremaining := hfirst.remaining_eq hterminal task row hrow
      have hremaining' := hsecond.remaining_eq hterminal' task other hother
      rw [hother, Option.some.injEq]
      obtain ⟨remaining, phase⟩ := row
      obtain ⟨remaining', phase'⟩ := other
      simp only at hremaining hremaining' hsame
      rw [hremaining, hremaining', hfinished, hsame]

/-- Two continuing states with the same phases and the same limit are one state. -/
theorem Consistent.eq_of_phases (hfirst : Consistent graph maxActive first)
    (hsecond : Consistent graph maxActive second) (hterminal : first.terminal = .continuing)
    (hterminal' : second.terminal = .continuing) (hphases : phases first.tasks = phases second.tasks) :
    first = second := by
  have htasks := hfirst.tasks_eq hsecond hterminal hterminal' hphases
  have hgraph := hfirst.graph_eq.trans hsecond.graph_eq.symm
  have hmaxActive := hfirst.maxActive_eq.trans hsecond.maxActive_eq.symm
  have hactive : first.active = second.active := by
    rw [hfirst.active_eq, hsecond.active_eq, htasks]
  have hcompleted : first.completed = second.completed := by
    rw [hfirst.completed_eq, hsecond.completed_eq, htasks]
  cases first
  cases second
  simp_all

end Determined

/-! ## Two finishes commute -/

section Diamond

variable {graph : Dependencies} {maxActive : Nat} {state : DagState}

theorem isReserved_iff {index : Nat} :
    state.isReserved index = .ok true ↔
      ∃ row, state.tasks[index]? = some row ∧ row.phase = .reserved := by
  rw [isReserved]
  cases state.tasks[index]? with
  | none => simp
  | some row => simp

/-- A reserved task finishes with success. -/
theorem Consistent.finish_reserved (hlinked : graph.Linked)
    (hconsistent : Consistent graph maxActive state) (hterminal : state.terminal = .continuing)
    {index : Nat} (hreserved : state.isReserved index = .ok true) :
    (state.finish index true).2 = .ok ∧
      Settles graph maxActive state index .finished .continuing (state.finish index true).1 := by
  obtain ⟨row, hrow, hphase⟩ := isReserved_iff.mp hreserved
  refine ⟨hconsistent.finish_ok hlinked hrow hphase true, ?_⟩
  have hsettles := hconsistent.finish_settles hlinked hrow hphase true
  simpa only [Bool.not_true, Bool.false_and, Bool.false_eq_true, if_false, hterminal] using hsettles

/-- Finishing one task leaves another reserved. -/
theorem Settles.isReserved {index other : Nat} {phase : DagTaskPhase} {terminal : DagTerminal}
    {next : DagState} (hsettles : Settles graph maxActive state index phase terminal next)
    (hne : index ≠ other) (hreserved : state.isReserved other = .ok true) :
    next.isReserved other = .ok true := by
  obtain ⟨row, hrow, hphase⟩ := isReserved_iff.mp hreserved
  have hother : (phases next.tasks)[other]? = some .reserved := by
    rw [hsettles.phases_eq, List.getElem?_set_ne hne, getElem?_phases, hrow, Option.map_some, hphase]
  rw [getElem?_phases] at hother
  exact isReserved_iff.mpr (Option.map_eq_some_iff.mp hother)

/-- Two reserved tasks may be finished in either order. -/
theorem Consistent.finish_comm (hlinked : graph.Linked)
    (hconsistent : Consistent graph maxActive state) (hterminal : state.terminal = .continuing)
    {first second : Nat} (hne : first ≠ second) (hfirst : state.isReserved first = .ok true)
    (hsecond : state.isReserved second = .ok true) :
    ((state.finish first true).1.finish second true) =
      ((state.finish second true).1.finish first true) := by
  obtain ⟨_, hsettles⟩ := hconsistent.finish_reserved hlinked hterminal hfirst
  obtain ⟨_, hsettles'⟩ := hconsistent.finish_reserved hlinked hterminal hsecond
  obtain ⟨hok, hboth⟩ := hsettles.consistent.finish_reserved hlinked hsettles.terminal_eq
    (hsettles.isReserved hne hsecond)
  obtain ⟨hok', hboth'⟩ := hsettles'.consistent.finish_reserved hlinked hsettles'.terminal_eq
    (hsettles'.isReserved hne.symm hfirst)
  apply Prod.ext
  · apply hboth.consistent.eq_of_phases hboth'.consistent hboth.terminal_eq hboth'.terminal_eq
    rw [hboth.phases_eq, hboth'.phases_eq, hsettles.phases_eq, hsettles'.phases_eq,
      List.set_comm _ _ hne]
  · rw [hok, hok']

end Diamond

/-! ## The order of finishes -/

/-- The tasks a run has finished with success, in order. -/
def finishedIn (history : List (DagRequest × DagReply)) : List Nat :=
  history.filterMap fun entry =>
    match entry.1 with
    | .finish task true => if entry.2.status = .ok then some task else none
    | _ => none

/-- The finishes of a run, against the state they led to. -/
structure FinishOrder (graph : Dependencies) (history : List (DagRequest × DagReply))
    (state : DagState) : Prop where
  nodup : (finishedIn history).Nodup
  mem_iff : ∀ task, task ∈ finishedIn history ↔ isFinished state.tasks task = true
  ordered : Ordered graph.pairs (finishedIn history)

section Order

variable {graph : Dependencies} {maxActive : Nat} {state : DagState}
  {history : List (DagRequest × DagReply)}

theorem finishedIn_append_single (entry : DagRequest × DagReply) :
    finishedIn (history ++ [entry]) = finishedIn history ++ finishedIn [entry] := by
  rw [finishedIn, List.filterMap_append]
  rfl

theorem mem_finishedIn_of_success {task : Nat} (hmem : successOf task ∈ history) :
    task ∈ finishedIn history :=
  List.mem_filterMap.mpr ⟨successOf task, hmem, rfl⟩

/-- A reserved task was claimed after its predecessors had been finished. -/
theorem Journal.sources_finished (hjournal : Journal graph history state) {index : Nat}
    (hreserved : state.isReserved index = .ok true) :
    ∀ edge ∈ graph.pairs, edge.2 = index → edge.1 ∈ finishedIn history := by
  intro edge hedge htarget
  obtain ⟨row, hrow, hphase⟩ := isReserved_iff.mp hreserved
  have hclaimed : index ∈ claimedIn history :=
    (hjournal.claimed_iff index).mpr ⟨row, hrow, by simp [hphase]⟩
  obtain ⟨entry, hentry, hin⟩ := List.mem_flatMap.mp hclaimed
  obtain ⟨before, after, rfl⟩ := List.append_of_mem hentry
  have hsuccess := hjournal.ordered before entry.1 entry.2 after rfl index hin edge hedge htarget
  exact mem_finishedIn_of_success (List.mem_append_left _ hsuccess)

/-- What a settlement does to the finished tasks. -/
theorem Settles.isFinished_eq {index : Nat} {terminal : DagTerminal} {next : DagState}
    (hsettles : Settles graph maxActive state index .finished terminal next)
    (hreserved : state.isReserved index = .ok true) (task : Nat) :
    isFinished next.tasks task = (decide (task = index) || isFinished state.tasks task) := by
  obtain ⟨row, hrow, _⟩ := isReserved_iff.mp hreserved
  rw [← isFinished_set hrow, isFinished, isFinished, hsettles.phases_eq, phases_set]

/-- One claim or successful finish extends the order. -/
theorem FinishOrder.extend (hlinked : graph.Linked)
    (hconsistent : Consistent graph maxActive state) (hjournal : Journal graph history state)
    (horder : FinishOrder graph history state) (hterminal : state.terminal = .continuing)
    {request : DagRequest} (hadvances : request.advances = true) :
    FinishOrder graph (history ++ [(request, (state.step request).2)]) (state.step request).1 := by
  have hquiet (hnone : finishedIn [(request, (state.step request).2)] = [])
      (hsame : isFinished (state.step request).1.tasks = isFinished state.tasks) :
      FinishOrder graph (history ++ [(request, (state.step request).2)])
        (state.step request).1 := by
    have hfinishes : finishedIn (history ++ [(request, (state.step request).2)]) =
        finishedIn history := by
      rw [finishedIn_append_single, hnone, List.append_nil]
    refine ⟨?_, ?_, ?_⟩
    · rw [hfinishes]
      exact horder.nodup
    · rw [hfinishes, hsame]
      exact horder.mem_iff
    · rw [hfinishes]
      exact horder.ordered
  cases request with
  | claimReady capacity =>
      apply hquiet rfl
      have heffect := claimReady_effect state capacity
      generalize (state.step (.claimReady capacity)).1 = next at heffect
      generalize (state.step (.claimReady capacity)).2 = reply at heffect
      cases heffect with
      | unchanged => rfl
      | claimed _ limit scanned _ _ hscan => exact hscan.isFinished_eq
  | finish index success =>
      obtain rfl : success = true := hadvances
      by_cases hreserved : state.isReserved index = .ok true
      · obtain ⟨hok, hsettles⟩ := hconsistent.finish_reserved hlinked hterminal hreserved
        have hlast : finishedIn [(DagRequest.finish index true, (state.step (.finish index true)).2)] =
            [index] := by
          simp [finishedIn, step, hok]
        have hopen : index ∉ finishedIn history := by
          obtain ⟨row, hrow, hphase⟩ := isReserved_iff.mp hreserved
          rw [horder.mem_iff, isFinished, getElem?_phases, hrow]
          simp [hphase]
        refine ⟨?_, ?_, ?_⟩
        · rw [finishedIn_append_single, hlast]
          rw [List.nodup_append]
          refine ⟨horder.nodup, List.nodup_singleton index, ?_⟩
          intro done hdone other hother hequal
          rw [List.mem_singleton] at hother
          exact hopen (hother ▸ hequal ▸ hdone)
        · intro task
          rw [finishedIn_append_single, hlast, List.mem_append, List.mem_singleton, horder.mem_iff]
          rw [show (state.step (.finish index true)).1 = (state.finish index true).1 from rfl,
            hsettles.isFinished_eq hreserved, Bool.or_eq_true, decide_eq_true_eq, or_comm]
        · rw [finishedIn_append_single, hlast]
          exact horder.ordered.snoc (hjournal.sources_finished hreserved)
      · have hsame : state.finish index true = (state, .einval) := by
          rw [finish]
          cases hrow : state.tasks[index]? with
          | none => rfl
          | some row =>
              have hphase : row.phase ≠ .reserved := fun hphase =>
                hreserved (isReserved_iff.mpr ⟨row, hrow, hphase⟩)
              simp [hphase]
        apply hquiet
        · simp [finishedIn, step, hsame]
        · simp [step, hsame]
  | refuse index => simp [DagRequest.advances] at hadvances
  | stop reason => simp [DagRequest.advances] at hadvances

end Order

/-! ## Maximal runs -/

/-- A run that only claims and finishes with success, until neither does anything more. -/
structure MaximalRun (graph : Dependencies) (maxActive : Nat)
    (history : List (DagRequest × DagReply)) (state : DagState) : Prop where
  reached : ∃ init, create graph maxActive = .ok init ∧ Run step init history state
  advances : ∀ entry ∈ history, entry.1.advances = true
  exhausted : ∀ request : DagRequest, request.advances = true → (state.step request).1 = state

section Maximal

variable {graph : Dependencies} {maxActive maxActive' : Nat} {state state' : DagState}
  {history history' : List (DagRequest × DagReply)}

/-- A run of claims and successful finishes keeps its finishes in order. -/
theorem run_finishOrder (haccepted : graph.Accepted) (hpositive : 1 ≤ maxActive) {init : DagState}
    (hinit : create graph maxActive = .ok init) (hrun : Run step init history state)
    (hadvances : ∀ entry ∈ history, entry.1.advances = true) :
    Consistent graph maxActive state ∧ state.terminal = .continuing ∧
      FinishOrder graph history state := by
  obtain ⟨fresh, hfresh, hconsistent, hcontinuing, hpending⟩ := create_consistent haccepted hpositive
  obtain rfl : fresh = init := by simpa [hfresh] using hinit
  refine ⟨(run_journal haccepted hconsistent hpending hrun).1,
    run_continuing haccepted.linked hconsistent hcontinuing hrun hadvances, ?_⟩
  have hholds := hrun.invariant (fun history state =>
    (∀ entry ∈ history, entry.1.advances = true) → FinishOrder graph history state) ?_ ?_
  · exact hholds hadvances
  · intro _
    refine ⟨List.nodup_nil, fun task => ?_, ordered_nil _⟩
    have hopen : isFinished fresh.tasks task ≠ true := by
      intro hfinished
      obtain ⟨row, hrow, hphase⟩ := isFinished_eq_true_iff.mp hfinished
      rw [hpending row (List.mem_of_getElem? hrow)] at hphase
      cases hphase
    simpa [finishedIn] using hopen
  · intro past current request hprior horder hall
    have hpast : ∀ entry ∈ past, entry.1.advances = true := fun entry hmem =>
      hall entry (List.mem_append_left _ hmem)
    obtain ⟨hcurrent, hjournal⟩ := run_journal haccepted hconsistent hpending hprior
    have hterminal := run_continuing haccepted.linked hconsistent hcontinuing hprior hpast
    apply (horder hpast).extend haccepted.linked hcurrent hjournal hterminal
    exact hall (request, (current.step request).2) (List.mem_append_right _ (List.mem_singleton_self _))

/-- Where no claim and no finish does anything, every task has succeeded. -/
theorem Consistent.allSucceeded_of_exhausted (haccepted : graph.Accepted) (hpositive : 1 ≤ maxActive)
    (hconsistent : Consistent graph maxActive state) (hterminal : state.terminal = .continuing)
    (hexhausted : ∀ request : DagRequest, request.advances = true → (state.step request).1 = state) :
    state.active = 0 ∧ state.completed = state.tasks.length := by
  have hidle : state.active = 0 := by
    by_contra hbusy
    have hreserved : 0 < countPhase state.tasks .reserved := by
      rw [← hconsistent.active_eq]
      omega
    rw [countPhase, List.count_pos_iff] at hreserved
    obtain ⟨row, hmem, hphase⟩ := List.mem_map.mp hreserved
    obtain ⟨index, hrow⟩ := List.getElem?_of_mem hmem
    have hcount := (hconsistent.finish_true haccepted.linked hterminal hrow hphase).2
    rw [hexhausted (.finish index true) rfl] at hcount
    omega
  refine ⟨hidle, ?_⟩
  have hcounts := reserved_add_finished_le state.tasks
  have hcompleted := hconsistent.completed_eq
  have hlength := hconsistent.length_eq
  by_contra hopen
  obtain ⟨_, hadmits⟩ := hconsistent.claimReady_admits haccepted hpositive hterminal hidle
    (by omega) (Nat.le_refl 1)
  have hactive := (claimReady_frame state 1).2.2
  have hsame : (state.claimReady 1).1 = state := hexhausted (.claimReady 1) rfl
  have hsome := List.length_pos_iff.mpr hadmits
  rw [hsame] at hactive
  omega

/-- With every task completed the phases are all the same. -/
theorem Consistent.phases_eq_replicate (hconsistent : Consistent graph maxActive state)
    (hall : state.completed = state.tasks.length) :
    phases state.tasks = List.replicate graph.taskCount .finished := by
  rw [List.eq_replicate_iff]
  have hcompleted := hconsistent.completed_eq
  have hlength : (phases state.tasks).length = state.tasks.length := List.length_map _
  refine ⟨hlength.trans hconsistent.length_eq, fun phase hphase => ?_⟩
  rw [hcompleted, countPhase, ← hlength] at hall
  exact (List.count_eq_length.mp hall phase hphase).symm

/-- A state in which every task has succeeded is exhausted. -/
theorem Consistent.exhausted (hlinked : graph.Linked)
    (hconsistent : Consistent graph maxActive state)
    (hall : state.completed = state.tasks.length) (request : DagRequest)
    (hadvances : request.advances = true) : (state.step request).1 = state := by
  have hphases := hconsistent.phases_eq_replicate hall
  have hphase {task : Nat} {row : DagTaskEntry} (hrow : state.tasks[task]? = some row) :
      row.phase = .finished := by
    have hmem : row.phase ∈ phases state.tasks := List.mem_map_of_mem (List.mem_of_getElem? hrow)
    rw [hphases] at hmem
    exact List.eq_of_mem_replicate hmem
  have heffect := hconsistent.effect hlinked request
  generalize (state.step request).1 = next at heffect
  generalize (state.step request).2 = reply at heffect
  cases heffect with
  | unchanged => rfl
  | claimed capacity limit scanned hterminal hlimit hscan =>
      have hnone : scanned.2 = [] := by
        rw [List.eq_nil_iff_forall_not_mem]
        intro task hmem
        obtain ⟨row, hrow, hpending, _⟩ := hscan.pending hmem
        rw [hphase hrow] at hpending
        cases hpending
      have hrows : scanned.1 = state.tasks := by
        apply List.ext_getElem?
        intro task
        simpa [hnone] using hscan.rows_eq task
      rw [hnone, hrows]
      rfl
  | succeeded index row hrow hreserved => simp [hphase hrow] at hreserved
  | settled index success row terminal hrow hreserved => simp [hphase hrow] at hreserved
  | refused index row terminal hrow hreserved => simp [hphase hrow] at hreserved
  | stopped reason => simp [DagRequest.advances] at hadvances

/-- A maximal run has finished every task once, in an order that respects the edges. -/
theorem MaximalRun.complete (haccepted : graph.Accepted)
    (hmaximal : MaximalRun graph maxActive history state) :
    state.getStats.allSucceeded = true ∧ (finishedIn history).Perm (List.range graph.taskCount) ∧
      Ordered graph.pairs (finishedIn history) ∧
      phases state.tasks = List.replicate graph.taskCount .finished := by
  obtain ⟨init, hinit, hrun⟩ := hmaximal.reached
  have hpositive := one_le_of_create hinit
  obtain ⟨hconsistent, hterminal, horder⟩ := run_finishOrder haccepted hpositive hinit hrun
    hmaximal.advances
  obtain ⟨hidle, hall⟩ := hconsistent.allSucceeded_of_exhausted haccepted hpositive hterminal
    hmaximal.exhausted
  have hphases := hconsistent.phases_eq_replicate hall
  refine ⟨by simp [getStats, hterminal, hall, hidle], ?_, horder.ordered, hphases⟩
  apply (List.perm_ext_iff_of_nodup horder.nodup List.nodup_range).mpr
  intro task
  rw [horder.mem_iff, List.mem_range, isFinished, hphases, List.getElem?_replicate]
  by_cases hlt : task < graph.taskCount <;> simp [hlt]

/-- What holds of every graph about the order of scheduling. -/
structure Confluent (graph : Dependencies) : Prop where
  finish_comm : ∀ maxActive init history state, create graph maxActive = .ok init →
    Run step init history state → state.terminal = .continuing →
    ∀ first second, first ≠ second → state.isReserved first = .ok true →
      state.isReserved second = .ok true →
      (state.finish first true).1.finish second true =
        (state.finish second true).1.finish first true
  exists_maximal : ∀ maxActive ≥ 1, ∃ history state, MaximalRun graph maxActive history state
  tasks_eq : ∀ maxActive maxActive' history history' state state',
    MaximalRun graph maxActive history state → MaximalRun graph maxActive' history' state' →
    state.tasks = state'.tasks
  complete : ∀ maxActive history state, MaximalRun graph maxActive history state →
    state.getStats.allSucceeded = true ∧ (finishedIn history).Perm (List.range graph.taskCount) ∧
      Ordered graph.pairs (finishedIn history)

/-- Scheduling an accepted graph is confluent. -/
theorem run_confluent (metadata : List (Option Json)) (graph : Dependencies)
    (hgraph : Dependencies.create metadata = .ok graph) : Confluent graph := by
  have haccepted := Dependencies.accepted_of_create hgraph
  refine ⟨?_, ?_, ?_, ?_⟩
  · intro maxActive init history state hinit hrun hterminal first second hne hfirst hsecond
    obtain ⟨_, hconsistent, _⟩ := consistent_of_run hgraph hinit hrun
    exact hconsistent.finish_comm haccepted.linked hterminal hne hfirst hsecond
  · intro maxActive hpositive
    obtain ⟨init, hinit, hconsistent, hcontinuing, _⟩ := create_consistent haccepted hpositive
    obtain ⟨later, last, hrun, hadvances, hsucceeded⟩ :=
      Consistent.complete haccepted hpositive _ init hconsistent hcontinuing rfl
    obtain ⟨hlast, _, _⟩ := run_finishOrder haccepted hpositive hinit hrun hadvances
    have hall : last.completed = last.tasks.length := by
      simp only [getStats, Bool.and_eq_true, decide_eq_true_eq] at hsucceeded
      exact hsucceeded.1.2
    exact ⟨later, last, ⟨init, hinit, hrun⟩, hadvances, hlast.exhausted haccepted.linked hall⟩
  · intro maxActive maxActive' history history' state state' hmaximal hmaximal'
    have hphases := (hmaximal.complete haccepted).2.2.2
    have hphases' := (hmaximal'.complete haccepted).2.2.2
    obtain ⟨init, hinit, hrun⟩ := hmaximal.reached
    obtain ⟨init', hinit', hrun'⟩ := hmaximal'.reached
    obtain ⟨hconsistent, hterminal, _⟩ := run_finishOrder haccepted (one_le_of_create hinit) hinit
      hrun hmaximal.advances
    obtain ⟨hconsistent', hterminal', _⟩ := run_finishOrder haccepted (one_le_of_create hinit')
      hinit' hrun' hmaximal'.advances
    exact hconsistent.tasks_eq hconsistent' hterminal hterminal' (hphases.trans hphases'.symm)
  · intro maxActive history state hmaximal
    obtain ⟨hsucceeded, hperm, hordered, _⟩ := hmaximal.complete haccepted
    exact ⟨hsucceeded, hperm, hordered⟩

theorem run_confluent_doubled : Confluent doubledGraph :=
  run_confluent doubled doubledGraph create_doubled

end Maximal

end DagState

end Praktor.Workflow
