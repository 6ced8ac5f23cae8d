/-
# Progress of the DAG readiness counter

`check_cycles` follows linked outgoing lists, while the scheduler scans the whole
edge list and counts at the targets.  The bridge between the two is the
topological order that an accepted graph has: the first unfinished task of that
order is blocked by nothing, so a continuing state with nothing in flight always
exposes a task that may be claimed.
-/

import Praktor.Workflow.DagSafety

namespace Praktor.Workflow

open Praktor.Data Praktor.Math Praktor.Math.Multigraph

/-- The calls of a driver whose tasks all succeed. -/
def DagRequest.advances : DagRequest → Bool
  | .claimReady _ => true
  | .finish _ success => success
  | .refuse _ => false
  | .stop _ => false

namespace DagState

section Exposure

variable {graph : Dependencies} {maxActive : Nat} {state : DagState}

/-- A state with an unfinished task has one that no edge blocks any more. -/
theorem Consistent.exists_unblocked (haccepted : graph.Accepted)
    (hconsistent : Consistent graph maxActive state)
    (hunfinished : state.completed < graph.taskCount) :
    ∃ (task : Nat) (row : DagTaskEntry), state.tasks[task]? = some row ∧ row.phase ≠ .finished ∧
      openInto graph.pairs (isFinished state.tasks) task = 0 := by
  have hopen : ∃ task < graph.taskCount, isFinished state.tasks task = false := by
    by_contra hnone
    push Not at hnone
    have hall : ∀ phase ∈ phases state.tasks, DagTaskPhase.finished = phase := by
      intro phase hphase
      obtain ⟨row, hrow, rfl⟩ := List.mem_map.mp hphase
      obtain ⟨task, hlt, hget⟩ := List.getElem_of_mem hrow
      have hfinished := hnone task (hconsistent.length_eq ▸ hlt)
      rw [Bool.ne_false_iff, isFinished_eq_true_iff] at hfinished
      obtain ⟨found, hfound, hphase⟩ := hfinished
      rw [List.getElem?_eq_getElem hlt, hget, Option.some.injEq] at hfound
      exact (hfound ▸ hphase).symm
    have hcount := List.count_eq_length.mpr hall
    have hcompleted := hconsistent.completed_eq
    have hlength := hconsistent.length_eq
    simp only [countPhase] at hcompleted
    simp only [phases, List.length_map] at hcount hcompleted
    omega
  obtain ⟨task, htask, hopenTask⟩ := hopen
  obtain ⟨order, hordered, hmem⟩ := haccepted.order
  obtain ⟨first, hfirst, hfirstOpen, hzero⟩ := hordered.exists_open_eq_zero
    ⟨task, (hmem task).mpr htask, hopenTask⟩
  have hlt : first < state.tasks.length := hconsistent.length_eq ▸ (hmem first).mp hfirst
  refine ⟨first, state.tasks[first], List.getElem?_eq_getElem hlt, fun hfinished => ?_, hzero⟩
  have := isFinished_eq_true_iff.mpr ⟨_, List.getElem?_eq_getElem hlt, hfinished⟩
  rw [hfirstOpen] at this
  contradiction

/-- With nothing in flight a continuing, unfinished state has a ready task. -/
theorem Consistent.exists_ready (haccepted : graph.Accepted)
    (hconsistent : Consistent graph maxActive state) (hterminal : state.terminal = .continuing)
    (hidle : state.active = 0) (hunfinished : state.completed < graph.taskCount) :
    ∃ (task : Nat) (row : DagTaskEntry), state.tasks[task]? = some row ∧
      row.phase = .pending ∧ row.remaining = 0 := by
  obtain ⟨task, row, hrow, hnotFinished, hopen⟩ :=
    hconsistent.exists_unblocked haccepted hunfinished
  have hmem := List.mem_of_getElem? hrow
  refine ⟨task, row, hrow, ?_, (hconsistent.remaining_eq hterminal task row hrow).trans hopen⟩
  cases hphase : row.phase with
  | pending => rfl
  | reserved =>
      have hcount : 0 < countPhase state.tasks .reserved := by
        rw [countPhase, List.count_pos_iff, ← hphase]
        exact List.mem_map_of_mem hmem
      have := hconsistent.active_eq
      omega
  | finished => exact absurd hphase hnotFinished
  | refused => exact absurd hphase (hconsistent.not_refused hterminal row hmem)

/-- A claim on a state with room and a ready task admits a task. -/
theorem claimReady_ne_nil (hterminal : state.terminal = .continuing)
    (hroom : state.active < state.maxActive) {capacity : Nat} (hcapacity : 1 ≤ capacity)
    (hready : ∃ row ∈ state.tasks, row.isReady = true) :
    (state.claimReady capacity).2.1 = .ok ∧ (state.claimReady capacity).2.2 ≠ [] := by
  have hscan := claimScan_spec (min (state.maxActive - state.active) capacity) state.tasks 0 0
    (Nat.zero_le _)
  have heq : state.claimReady capacity =
      let scanned := claimScan (min (state.maxActive - state.active) capacity) 0 0 state.tasks
      ({ state with tasks := scanned.1, active := state.active + scanned.2.length }, .ok,
        scanned.2) := by
    rw [claimReady, if_neg (by omega), if_neg (not_not.mpr hterminal), if_neg (by omega)]
  rw [heq]
  exact ⟨rfl, hscan.progress (by omega) hready⟩

/-- An idle, continuing and unfinished state admits a task on the next claim. -/
theorem Consistent.claimReady_admits (haccepted : graph.Accepted) (hpositive : 1 ≤ maxActive)
    (hconsistent : Consistent graph maxActive state) (hterminal : state.terminal = .continuing)
    (hidle : state.active = 0) (hunfinished : state.completed < graph.taskCount)
    {capacity : Nat} (hcapacity : 1 ≤ capacity) :
    (state.claimReady capacity).2.1 = .ok ∧ (state.claimReady capacity).2.2 ≠ [] := by
  obtain ⟨task, row, hrow, hpending, hzero⟩ :=
    hconsistent.exists_ready haccepted hterminal hidle hunfinished
  have hroom : state.active < state.maxActive := by
    rw [hconsistent.maxActive_eq]
    omega
  exact claimReady_ne_nil hterminal hroom hcapacity
    ⟨row, List.mem_of_getElem? hrow, by simp [DagTaskEntry.isReady, hpending, hzero]⟩

end Exposure

/-! ## Completing a run -/

section Completion

variable {graph : Dependencies} {maxActive : Nat} {state : DagState}

/-- A successful settlement of a reserved task, as a state. -/
theorem Consistent.finish_true (hlinked : graph.Linked)
    (hconsistent : Consistent graph maxActive state) (hterminal : state.terminal = .continuing)
    {index : Nat} {row : DagTaskEntry} (hrow : state.tasks[index]? = some row)
    (hreserved : row.phase = .reserved) :
    (state.step (.finish index true)).1.terminal = .continuing ∧
      (state.step (.finish index true)).1.completed = state.completed + 1 := by
  have hretired := hconsistent.retireEdges_settled hlinked hterminal hrow hreserved
  rw [← hconsistent.graph_eq] at hretired
  simp [step, finish, hrow, hreserved, hterminal, hretired]

/-- Claiming changes neither the terminal reason nor the completed count. -/
theorem claimReady_frame (state : DagState) (capacity : Nat) :
    (state.claimReady capacity).1.terminal = state.terminal ∧
      (state.claimReady capacity).1.completed = state.completed ∧
      (state.claimReady capacity).1.active =
        state.active + (state.claimReady capacity).2.2.length := by
  rw [claimReady]
  split_ifs <;> simp

/-- A continuing state with a reservation completes one more task. -/
theorem Consistent.complete_reserved (haccepted : graph.Accepted)
    (hconsistent : Consistent graph maxActive state) (hterminal : state.terminal = .continuing)
    (hbusy : 0 < state.active) :
    ∃ index next, (state.step (.finish index true)).1 = next ∧ Consistent graph maxActive next ∧
      next.terminal = .continuing ∧ next.completed = state.completed + 1 := by
  have hreserved : 0 < countPhase state.tasks .reserved := hconsistent.active_eq ▸ hbusy
  rw [countPhase, List.count_pos_iff] at hreserved
  obtain ⟨row, hmem, hphase⟩ := List.mem_map.mp hreserved
  obtain ⟨index, hrow⟩ := List.getElem?_of_mem hmem
  have heffect := hconsistent.effect haccepted.linked (.finish index true)
  exact ⟨index, _, rfl, hconsistent.preserved heffect,
    hconsistent.finish_true haccepted.linked hterminal hrow hphase⟩

/-- A continuing, unfinished state reaches one that has completed one more task
by claims and successful settlements alone. -/
theorem Consistent.advance (haccepted : graph.Accepted) (hpositive : 1 ≤ maxActive)
    (hconsistent : Consistent graph maxActive state) (hterminal : state.terminal = .continuing)
    (hunfinished : state.completed < graph.taskCount) :
    ∃ later next, Run step state later next ∧ (∀ entry ∈ later, entry.1.advances = true) ∧
      Consistent graph maxActive next ∧ next.terminal = .continuing ∧
      next.completed = state.completed + 1 := by
  by_cases hbusy : 0 < state.active
  · obtain ⟨index, next, hnext, hcomplete⟩ :=
      hconsistent.complete_reserved haccepted hterminal hbusy
    have hrun := Run.single step state (DagRequest.finish index true)
    refine ⟨_, next, hnext ▸ hrun, ?_, hcomplete⟩
    simp [DagRequest.advances]
  · have hidle : state.active = 0 := by omega
    obtain ⟨_, hadmits⟩ := hconsistent.claimReady_admits haccepted hpositive hterminal hidle
      hunfinished (Nat.le_refl 1)
    obtain ⟨hterminal', hcompleted', hactive'⟩ := claimReady_frame state 1
    have hclaimed : Consistent graph maxActive (state.claimReady 1).1 :=
      hconsistent.preserved (hconsistent.effect haccepted.linked (.claimReady 1))
    have hbusy' : 0 < (state.claimReady 1).1.active := by
      have := List.length_pos_iff.mpr hadmits
      omega
    obtain ⟨index, next, hnext, hkept, hcontinuing, hcount⟩ :=
      hclaimed.complete_reserved haccepted (hterminal'.trans hterminal) hbusy'
    have hrun := (Run.single step state (DagRequest.claimReady 1)).extend
      (DagRequest.finish index true)
    refine ⟨_, next, hnext ▸ hrun, ?_, hkept, hcontinuing, by omega⟩
    simp [DagRequest.advances]

/-- No task is both reserved and finished. -/
theorem reserved_add_finished_le (tasks : List DagTaskEntry) :
    countPhase tasks .reserved + countPhase tasks .finished ≤ tasks.length := by
  induction tasks with
  | nil => simp [countPhase, phases]
  | cons row rest ih =>
      simp only [countPhase, phases] at ih
      simp only [countPhase, phases, List.map_cons, List.count_cons, List.length_cons]
      cases row.phase <;> simp <;> omega

/-- A continuing state can be driven until every task has succeeded. -/
theorem Consistent.complete (haccepted : graph.Accepted) (hpositive : 1 ≤ maxActive) :
    ∀ (left : Nat) (state : DagState), Consistent graph maxActive state →
      state.terminal = .continuing → graph.taskCount - state.completed = left →
      ∃ later last, Run step state later last ∧ (∀ entry ∈ later, entry.1.advances = true) ∧
        last.getStats.allSucceeded = true := by
  intro left
  induction left with
  | zero =>
      intro state hconsistent hterminal hdone
      have hcounts := reserved_add_finished_le state.tasks
      have hactive := hconsistent.active_eq
      have hcompleted := hconsistent.completed_eq
      have hlength := hconsistent.length_eq
      refine ⟨[], state, .start, by simp, ?_⟩
      simp only [getStats, hterminal, decide_true, Bool.true_and, Bool.and_eq_true,
        decide_eq_true_eq]
      omega
  | succ left ih =>
      intro state hconsistent hterminal hopen
      obtain ⟨later, next, hrun, hlater, hkept, hcontinuing, hcount⟩ :=
        hconsistent.advance haccepted hpositive hterminal (by omega)
      obtain ⟨rest, last, hrest, hrestAdvances, hlast⟩ := ih next hkept hcontinuing (by omega)
      refine ⟨later ++ rest, last, hrun.append hrest, fun entry hentry => ?_, hlast⟩
      rcases List.mem_append.mp hentry with hearly | hlate
      · exact hlater entry hearly
      · exact hrestAdvances entry hlate

/-- A driver that only claims and settles successfully never meets a terminal
reason. -/
theorem run_continuing (hlinked : graph.Linked) {init : DagState}
    (hconsistent : Consistent graph maxActive init) (hcontinuing : init.terminal = .continuing)
    {history : List (DagRequest × DagReply)} (hrun : Run step init history state)
    (hadvances : ∀ entry ∈ history, entry.1.advances = true) : state.terminal = .continuing := by
  have hholds := hrun.invariant (fun history state => Consistent graph maxActive state ∧
    ((∀ entry ∈ history, entry.1.advances = true) → state.terminal = .continuing))
    ⟨hconsistent, fun _ => hcontinuing⟩ ?_
  · exact hholds.2 hadvances
  rintro past current request _ ⟨hcurrent, hpast⟩
  have heffect := hcurrent.effect hlinked request
  refine ⟨hcurrent.preserved heffect, fun hall => ?_⟩
  have hterminal := hpast fun entry hentry => hall entry (by simp [hentry])
  have hrequest : request.advances = true :=
    hall (request, (current.step request).2) (by simp)
  cases request with
  | claimReady capacity => exact (claimReady_frame current capacity).1.trans hterminal
  | finish index success =>
      have hsuccess : success = true := hrequest
      subst hsuccess
      cases hrow : current.tasks[index]? with
      | none => simpa [step, finish, hrow] using hterminal
      | some row =>
          by_cases hreserved : row.phase = .reserved
          · exact (hcurrent.finish_true hlinked hterminal hrow hreserved).1
          · simpa [step, finish, hrow, hreserved] using hterminal
  | refuse index => simp [DagRequest.advances] at hrequest
  | stop reason => simp [DagRequest.advances] at hrequest

/-- What a driver may rely on to make progress after a run from `init`. -/
structure Live (graph : Dependencies) (init : DagState) (history : List (DagRequest × DagReply))
    (state : DagState) : Prop where
  exposes : state.terminal = .continuing → state.active = 0 → state.completed < graph.taskCount →
    ∃ (task : Nat) (row : DagTaskEntry), state.tasks[task]? = some row ∧
      row.phase = .pending ∧ row.remaining = 0
  admits : state.terminal = .continuing → state.active = 0 → state.completed < graph.taskCount →
    ∀ capacity ≥ 1,
      (state.claimReady capacity).2.1 = .ok ∧ (state.claimReady capacity).2.2 ≠ []
  completes : (∀ entry ∈ history, entry.1.advances = true) →
    ∃ later last, Run step init (history ++ later) last ∧
      (∀ entry ∈ later, entry.1.advances = true) ∧ last.getStats.allSucceeded = true
  quiesces : state.getStats.active = 0 → state.getStats.ready = 0 →
    state.getStats.quiescent = true

/-- No run deadlocks: whatever calls were made, an idle and continuing state is
finished or exposes a task, and a run without failures can be completed. -/
theorem run_live (metadata : List (Option Json)) (graph : Dependencies) (maxActive : Nat)
    (hgraph : Dependencies.create metadata = .ok graph) (hpositive : 1 ≤ maxActive) :
    ∃ init, create graph maxActive = .ok init ∧
      ∀ history state, Run step init history state → Live graph init history state := by
  have haccepted := Dependencies.accepted_of_create hgraph
  obtain ⟨init, hcreate, hinit, hcontinuing, hpending⟩ := create_consistent haccepted hpositive
  refine ⟨init, hcreate, fun history state hrun => ?_⟩
  obtain ⟨hconsistent, _⟩ := run_journal haccepted hinit hpending hrun
  refine ⟨hconsistent.exists_ready haccepted, fun hterminal hidle hunfinished capacity hcapacity =>
    hconsistent.claimReady_admits haccepted hpositive hterminal hidle hunfinished hcapacity,
    fun hadvances => ?_, fun hidle hready => ?_⟩
  · have hterminal := run_continuing haccepted.linked hinit hcontinuing hrun hadvances
    obtain ⟨later, last, hlater, hlaterAdvances, hlast⟩ :=
      Consistent.complete haccepted hpositive _ state hconsistent hterminal rfl
    exact ⟨later, last, hrun.append hlater, hlaterAdvances, hlast⟩
  · have hidle' : state.active = 0 := hidle
    by_cases hterminal : state.terminal = .continuing
    · have hcount : ∀ row ∈ state.tasks, row.isReady = false := by
        simpa [getStats, hterminal] using hready
      have hfinished : ¬ state.completed < graph.taskCount := by
        intro hunfinished
        obtain ⟨task, row, hrow, hphase, hzero⟩ :=
          hconsistent.exists_ready haccepted hterminal hidle' hunfinished
        have := hcount row (List.mem_of_getElem? hrow)
        simp [DagTaskEntry.isReady, hphase, hzero] at this
      have hcounts := reserved_add_finished_le state.tasks
      have hcompleted := hconsistent.completed_eq
      have hlength := hconsistent.length_eq
      have hall : state.completed = state.tasks.length := by omega
      simp [getStats, hidle', hall]
    · simp [getStats, hidle', hterminal]

theorem run_live_doubled :
    ∃ init, create doubledGraph 1 = .ok init ∧
      ∀ history state, Run step init history state → Live doubledGraph init history state :=
  run_live doubled doubledGraph 1 create_doubled (by decide)

end Completion

end DagState

end Praktor.Workflow
