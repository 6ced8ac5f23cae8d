/-
# Safety of the DAG readiness counter over whole runs

The state keeps one counter for each task and three aggregate fields, and four
calls change them in any order.  This module says once what a call can do to a
consistent state (`Effect`), and derives from it that consistency survives every
call, rejected ones included.

The counter law is conditional: after a terminal reason `finish` no longer
retires edges, so counters only mean something while the run continues.  That is
enough, because nothing is claimed afterwards.
-/

import Praktor.Math.Multigraph
import Praktor.Math.Run
import Praktor.Workflow.DagState
import Praktor.Workflow.DependencyOrder

namespace Praktor.Workflow

open Praktor.Data Praktor.Math Praktor.Math.Multigraph

namespace DagState

/-! ## Reading the task table -/

/-- The phases of the tasks in declaration order. -/
def phases (tasks : List DagTaskEntry) : List DagTaskPhase := tasks.map DagTaskEntry.phase

/-- How many tasks are in a phase. -/
def countPhase (tasks : List DagTaskEntry) (phase : DagTaskPhase) : Nat :=
  (phases tasks).count phase

/-- Whether a task has been finished, successfully or not. -/
def isFinished (tasks : List DagTaskEntry) (task : Nat) : Bool :=
  (phases tasks)[task]? = some .finished

/-- Mark one entry as reserved. -/
def reserve (row : DagTaskEntry) : DagTaskEntry := { row with phase := .reserved }

theorem phases_set (tasks : List DagTaskEntry) (index : Nat) (row : DagTaskEntry) :
    phases (tasks.set index row) = (phases tasks).set index row.phase := by
  simp [phases]

theorem getElem?_phases (tasks : List DagTaskEntry) (task : Nat) :
    (phases tasks)[task]? = tasks[task]?.map DagTaskEntry.phase := by
  simp [phases]

theorem isFinished_eq_true_iff {tasks : List DagTaskEntry} {task : Nat} :
    isFinished tasks task = true ↔ ∃ row, tasks[task]? = some row ∧ row.phase = .finished := by
  simp [isFinished, getElem?_phases]

/-- Moving one task from phase to phase moves one unit between their counts. -/
theorem countPhase_set {tasks : List DagTaskEntry} {index : Nat} {row : DagTaskEntry}
    (hrow : tasks[index]? = some row) (next : DagTaskEntry) (phase : DagTaskPhase) :
    countPhase (tasks.set index next) phase + (if row.phase = phase then 1 else 0) =
      countPhase tasks phase + (if next.phase = phase then 1 else 0) := by
  obtain ⟨hlt, hget⟩ := List.getElem?_eq_some_iff.mp hrow
  have hlt' : index < (phases tasks).length := by simpa [phases] using hlt
  have hphase : (phases tasks)[index] = row.phase := by simp [phases, hget]
  have hcount := List.count_set (b := phase) (a := next.phase) hlt'
  simp only [hphase, beq_iff_eq] at hcount
  by_cases hrowPhase : row.phase = phase
  · have hpos : 0 < (phases tasks).count phase := by
      rw [List.count_pos_iff, ← hrowPhase, ← hphase]
      exact List.getElem_mem hlt'
    simp only [countPhase, phases_set, hcount, hrowPhase, if_true]
    omega
  · simp only [countPhase, phases_set, hcount, if_neg hrowPhase]
    omega

/-! ## The two scans -/

/-- What a claim scan over `rows`, starting at task `index`, returns. -/
structure ScanSpec (limit index admitted : Nat) (rows : List DagTaskEntry)
    (scanned : List DagTaskEntry × List Nat) : Prop where
  bounded : admitted + scanned.2.length ≤ limit
  nodup : scanned.2.Nodup
  ready : ∀ task ∈ scanned.2, index ≤ task ∧
    ∃ row, rows[task - index]? = some row ∧ row.isReady = true
  rows_eq : ∀ offset, scanned.1[offset]? =
    if index + offset ∈ scanned.2 then rows[offset]?.map reserve else rows[offset]?
  reserved : countPhase scanned.1 .reserved = countPhase rows .reserved + scanned.2.length
  finished : countPhase scanned.1 .finished = countPhase rows .finished
  progress : admitted < limit → (∃ row ∈ rows, row.isReady = true) → scanned.2 ≠ []

section Scan

variable {limit index admitted : Nat} {row : DagTaskEntry} {rest : List DagTaskEntry}
  {scanned : List DagTaskEntry × List Nat}

theorem isReady_iff {row : DagTaskEntry} :
    row.isReady = true ↔ row.phase = .pending ∧ row.remaining = 0 := by
  simp [DagTaskEntry.isReady]

/-- A ready row of the rest, counted from one place earlier. -/
theorem ScanSpec.ready_cons (hscan : ScanSpec limit (index + 1) admitted rest scanned) {task : Nat}
    (htask : task ∈ scanned.2) :
    index ≤ task ∧ ∃ found, (row :: rest)[task - index]? = some found ∧ found.isReady = true := by
  obtain ⟨hindex, found, hfound, hready⟩ := hscan.ready task htask
  refine ⟨by omega, found, ?_, hready⟩
  have hoffset : task - index = (task - (index + 1)) + 1 := by omega
  rw [hoffset, List.getElem?_cons_succ]
  exact hfound

/-- The scan of the rest does not come back to an earlier task. -/
theorem ScanSpec.not_mem (hscan : ScanSpec limit (index + 1) admitted rest scanned) :
    index ∉ scanned.2 := by
  intro hmem
  have hle := (hscan.ready index hmem).1
  omega

/-- A ready row is claimed. -/
theorem ScanSpec.claim (hready : row.isReady = true)
    (hscan : ScanSpec limit (index + 1) (admitted + 1) rest scanned) :
    ScanSpec limit index admitted (row :: rest) (reserve row :: scanned.1, index :: scanned.2) := by
  have hpending : row.phase = .pending := (isReady_iff.mp hready).1
  refine ⟨?_, List.nodup_cons.mpr ⟨hscan.not_mem, hscan.nodup⟩, ?_, ?_, ?_, ?_, by simp⟩
  · have hbounded := hscan.bounded
    simp only [List.length_cons]
    omega
  · intro task htask
    rcases List.mem_cons.mp htask with rfl | hlater
    · exact ⟨Nat.le_refl _, row, by simp, hready⟩
    · exact hscan.ready_cons hlater
  · intro offset
    cases offset with
    | zero => simp
    | succ offset =>
        have hshift : index + (offset + 1) = index + 1 + offset := by omega
        have hne : index + 1 + offset ≠ index := by omega
        simpa [hshift, List.mem_cons, hne] using hscan.rows_eq offset
  · have hreserved := hscan.reserved
    simp only [countPhase, phases] at hreserved ⊢
    simp only [List.map_cons, reserve, List.count_cons_self, hpending, List.length_cons, hreserved]
    simp
    omega
  · have hfinished := hscan.finished
    simp only [countPhase, phases] at hfinished ⊢
    simp [reserve, hpending, hfinished]

/-- Any other row is passed over. -/
theorem ScanSpec.pass (hready : ¬ row.isReady = true)
    (hscan : ScanSpec limit (index + 1) admitted rest scanned) :
    ScanSpec limit index admitted (row :: rest) (row :: scanned.1, scanned.2) := by
  refine ⟨hscan.bounded, hscan.nodup, fun task htask => hscan.ready_cons htask, ?_, ?_, ?_, ?_⟩
  · intro offset
    cases offset with
    | zero => simp [hscan.not_mem]
    | succ offset =>
        have hshift : index + (offset + 1) = index + 1 + offset := by omega
        simpa [hshift] using hscan.rows_eq offset
  · have hreserved := hscan.reserved
    simp only [countPhase, phases, List.map_cons, List.count_cons] at hreserved ⊢
    omega
  · have hfinished := hscan.finished
    simp only [countPhase, phases, List.map_cons, List.count_cons] at hfinished ⊢
    omega
  · rintro hroom ⟨found, hfound, hfoundReady⟩
    rcases List.mem_cons.mp hfound with rfl | hlater
    · exact absurd hfoundReady hready
    · exact hscan.progress hroom ⟨found, hlater, hfoundReady⟩

end Scan

theorem claimScan_spec (limit : Nat) :
    ∀ (rows : List DagTaskEntry) (index admitted : Nat), admitted ≤ limit →
      ScanSpec limit index admitted rows (claimScan limit index admitted rows) := by
  intro rows
  induction rows with
  | nil =>
      intro index admitted hle
      exact ⟨by simpa [claimScan] using hle, by simp [claimScan], by simp [claimScan],
        by simp [claimScan], by simp [claimScan], rfl, by simp⟩
  | cons row rest ih =>
      intro index admitted hle
      by_cases hroom : admitted < limit
      · by_cases hready : row.isReady = true
        · simpa [claimScan, hroom, hready, reserve] using (ih (index + 1) _ hroom).claim hready
        · simpa [claimScan, hroom, hready] using (ih (index + 1) admitted hle).pass hready
      · have heq : claimScan limit index admitted (row :: rest) = (row :: rest, []) := by
          simp [claimScan, hroom]
        rw [heq]
        exact ⟨by simpa using hle, List.nodup_nil, by simp, by simp, by simp, rfl,
          fun hlt => absurd hlt hroom⟩

/-- The task table after the edges of `index` are retired. -/
def retire (index : Nat) (edges : List (Nat × Nat)) (tasks : List DagTaskEntry) :
    List DagTaskEntry :=
  tasks.mapIdx fun task row => { row with remaining := row.remaining - edges.count (index, task) }

@[simp]
theorem phases_retire (index : Nat) (edges : List (Nat × Nat)) (tasks : List DagTaskEntry) :
    phases (retire index edges tasks) = phases tasks := by
  apply List.ext_getElem?
  intro task
  simp only [getElem?_phases, retire, List.getElem?_mapIdx, Option.map_map]
  rfl

@[simp]
theorem isFinished_retire (index : Nat) (edges : List (Nat × Nat)) (tasks : List DagTaskEntry) :
    isFinished (retire index edges tasks) = isFinished tasks := by
  funext task
  simp only [isFinished, phases_retire]

theorem retire_nil (index : Nat) (tasks : List DagTaskEntry) : retire index [] tasks = tasks := by
  apply List.ext_getElem?
  intro task
  simp only [retire, List.getElem?_mapIdx, List.count_nil, Nat.sub_zero]
  cases tasks[task]? <;> rfl

/-- Retiring one edge more is lowering the counter of its target first. -/
theorem retire_cons {tasks : List DagTaskEntry} {target : Nat} {row : DagTaskEntry}
    (hrow : tasks[target]? = some row) (source : Nat) (rest : List (Nat × Nat)) :
    retire source rest (tasks.set target { row with remaining := row.remaining - 1 }) =
      retire source ((source, target) :: rest) tasks := by
  obtain ⟨htarget, _⟩ := List.getElem?_eq_some_iff.mp hrow
  apply List.ext_getElem?
  intro task
  simp only [retire, List.getElem?_mapIdx, List.getElem?_set, List.count_cons]
  by_cases htask : target = task
  · subst htask
    simp only [if_true, htarget, hrow, Option.map_some, beq_self_eq_true]
    congr 2
    omega
  · have hpair : ((source, target) == (source, task)) = false := by simp [htask]
    simp only [htask, if_false, hpair, Bool.false_eq_true, Nat.add_zero]

/-- An edge scan whose counters all suffice reaches its end, and lowers each
counter by the multiplicity of the edge into it. -/
theorem retireEdges_eq (index : Nat) :
    ∀ (edges : List (Nat × Nat)) (tasks : List DagTaskEntry),
      (∀ edge ∈ edges, edge.1 < tasks.length ∧ edge.2 < tasks.length) →
      (∀ task row, tasks[task]? = some row → edges.count (index, task) ≤ row.remaining) →
      retireEdges index edges tasks = (retire index edges tasks, .ok) := by
  intro edges
  induction edges with
  | nil =>
      intro tasks _ _
      rw [retireEdges, retire_nil]
  | cons edge rest ih =>
      intro tasks hrange hcount
      obtain ⟨source, target⟩ := edge
      obtain ⟨hsource, htarget⟩ := hrange (source, target) (by simp)
      have hrest : ∀ edge ∈ rest, edge.1 < tasks.length ∧ edge.2 < tasks.length :=
        fun edge hedge => hrange edge (by simp [hedge])
      obtain ⟨row, hrow⟩ : ∃ row, tasks[target]? = some row :=
        ⟨_, List.getElem?_eq_getElem htarget⟩
      simp only [retireEdges, ge_iff_le, Nat.not_le.mpr hsource, if_false, hrow]
      by_cases hindex : source = index
      · subst hindex
        have hpositive : rest.count (source, target) + 1 ≤ row.remaining := by
          simpa using hcount target row hrow
        have hne : row.remaining ≠ 0 := by omega
        rw [if_pos rfl, if_neg hne]
        rw [ih _ (by simpa using hrest)]
        · rw [retire_cons hrow]
        · intro task other hother
          rw [List.getElem?_set] at hother
          by_cases htask : target = task
          · subst htask
            simp only [if_true, htarget, Option.some.injEq] at hother
            subst hother
            show rest.count (source, target) ≤ row.remaining - 1
            omega
          · simp only [htask, if_false] at hother
            have := hcount task other hother
            simpa [List.count_cons, htask] using this
      · have hskip : ∀ task, ((source, target) :: rest).count (index, task) =
            rest.count (index, task) := by
          intro task
          simp [hindex]
        rw [if_neg hindex, ih tasks hrest fun task other hother => by
          simpa [hskip] using hcount task other hother]
        simp only [retire, hskip]

/-! ## Consistency -/

/-- The state agrees with itself and with the graph it counts. -/
structure Consistent (graph : Dependencies) (maxActive : Nat) (state : DagState) : Prop where
  graph_eq : state.graph = graph
  maxActive_eq : state.maxActive = maxActive
  length_eq : state.tasks.length = graph.taskCount
  active_eq : state.active = countPhase state.tasks .reserved
  active_le : state.active ≤ maxActive
  completed_eq : state.completed = countPhase state.tasks .finished
  remaining_eq : state.terminal = .continuing → ∀ task row, state.tasks[task]? = some row →
    row.remaining = openInto graph.pairs (isFinished state.tasks) task
  not_refused : state.terminal = .continuing → ∀ row ∈ state.tasks, row.phase ≠ .refused

/-- What a call can do to a consistent state, with its reply. -/
inductive Effect (state : DagState) : DagRequest → DagState → DagReply → Prop
  | unchanged (request : DagRequest) (status : Salts) : Effect state request state ⟨status, []⟩
  | claimed (capacity limit : Nat) (scanned : List DagTaskEntry × List Nat)
      (hterminal : state.terminal = .continuing)
      (hlimit : limit ≤ state.maxActive - state.active)
      (hscan : ScanSpec limit 0 0 state.tasks scanned) :
      Effect state (.claimReady capacity)
        { state with tasks := scanned.1, active := state.active + scanned.2.length }
        ⟨.ok, scanned.2⟩
  | succeeded (index : Nat) (row : DagTaskEntry) (hrow : state.tasks[index]? = some row)
      (hreserved : row.phase = .reserved) (hterminal : state.terminal = .continuing) :
      Effect state (.finish index true)
        { state with
          tasks := retire index state.graph.pairs
            (state.tasks.set index { row with phase := .finished })
          active := state.active - 1
          completed := state.completed + 1 } ⟨.ok, []⟩
  | settled (index : Nat) (success : Bool) (row : DagTaskEntry) (terminal : DagTerminal)
      (hrow : state.tasks[index]? = some row) (hreserved : row.phase = .reserved)
      (hstopped : terminal ≠ .continuing)
      (hlatched : state.terminal ≠ .continuing → terminal = state.terminal) :
      Effect state (.finish index success)
        { state with
          tasks := state.tasks.set index { row with phase := .finished }
          active := state.active - 1
          completed := state.completed + 1
          terminal := terminal } ⟨.ok, []⟩
  | refused (index : Nat) (row : DagTaskEntry) (terminal : DagTerminal)
      (hrow : state.tasks[index]? = some row) (hreserved : row.phase = .reserved)
      (hstopped : terminal ≠ .continuing)
      (hlatched : state.terminal ≠ .continuing → terminal = state.terminal) :
      Effect state (.refuse index)
        { state with
          tasks := state.tasks.set index { row with phase := .refused }
          active := state.active - 1
          terminal := terminal } ⟨.ok, []⟩
  | stopped (reason terminal : DagTerminal) (hstopped : terminal ≠ .continuing)
      (hlatched : state.terminal ≠ .continuing → terminal = state.terminal) :
      Effect state (.stop reason) { state with terminal := terminal } ⟨.ok, []⟩

section Calls

variable {graph : Dependencies} {maxActive : Nat} {state : DagState}

/-- Finishing a task makes it, and no other, finished. -/
theorem isFinished_set {tasks : List DagTaskEntry} {index : Nat} {row : DagTaskEntry}
    (hrow : tasks[index]? = some row) (task : Nat) :
    isFinished (tasks.set index { row with phase := .finished }) task =
      (decide (task = index) || isFinished tasks task) := by
  obtain ⟨hlt, _⟩ := List.getElem?_eq_some_iff.mp hrow
  simp only [isFinished, phases_set]
  by_cases htask : task = index
  · subst htask
    simp [phases, hlt]
  · simp [htask, List.getElem?_set_ne (Ne.symm htask)]

/-- Setting a phase leaves every counter alone. -/
theorem Consistent.remaining_set (hconsistent : Consistent graph maxActive state)
    (hterminal : state.terminal = .continuing) {index : Nat} {row : DagTaskEntry}
    (hrow : state.tasks[index]? = some row) {phase : DagTaskPhase} {task : Nat}
    {other : DagTaskEntry}
    (hother : (state.tasks.set index { row with phase := phase })[task]? = some other) :
    other.remaining = openInto graph.pairs (isFinished state.tasks) task := by
  rw [List.getElem?_set] at hother
  by_cases htask : index = task
  · subst htask
    obtain ⟨hlt, _⟩ := List.getElem?_eq_some_iff.mp hrow
    simp only [if_true, hlt, Option.some.injEq] at hother
    subst hother
    exact hconsistent.remaining_eq hterminal index row hrow
  · simp only [htask, if_false] at hother
    exact hconsistent.remaining_eq hterminal task other hother

/-- A reserved task of a consistent, continuing state has its edges retired
without the scan ever meeting an exhausted counter. -/
theorem Consistent.retireEdges_settled (hlinked : graph.Linked)
    (hconsistent : Consistent graph maxActive state) (hterminal : state.terminal = .continuing)
    {index : Nat} {row : DagTaskEntry} (hrow : state.tasks[index]? = some row)
    (hreserved : row.phase = .reserved) :
    retireEdges index graph.pairs (state.tasks.set index { row with phase := .finished }) =
      (retire index graph.pairs (state.tasks.set index { row with phase := .finished }), .ok) := by
  apply retireEdges_eq
  · intro edge hedge
    simpa [hconsistent.length_eq] using hlinked.mem_pairs edge hedge
  · intro task other hother
    have hopenIndex : isFinished state.tasks index = false := by
      simp [isFinished, getElem?_phases, hrow, hreserved]
    have hopen := openInto_retire graph.pairs index task hopenIndex
      (isFinished_set hrow)
    have hremaining := hconsistent.remaining_set hterminal hrow hother
    omega

theorem claimReady_effect (state : DagState) (capacity : Nat) :
    Effect state (.claimReady capacity) (state.step (.claimReady capacity)).1
      (state.step (.claimReady capacity)).2 := by
  simp only [step, claimReady]
  by_cases hcapacity : capacity = 0
  · rw [if_pos hcapacity]
    exact .unchanged _ _
  rw [if_neg hcapacity]
  by_cases hterminal : state.terminal = .continuing
  · rw [if_neg (not_not.mpr hterminal)]
    by_cases hfull : state.active ≥ state.maxActive
    · rw [if_pos hfull]
      exact .unchanged _ _
    · rw [if_neg hfull]
      exact .claimed capacity _ _ hterminal (Nat.min_le_left _ _)
        (claimScan_spec _ state.tasks 0 0 (Nat.zero_le _))
  · rw [if_pos hterminal]
    exact .unchanged _ _

/-- Only a successful finish of a run that continues looks at the edges. -/
theorem Consistent.finish_effect (hlinked : graph.Linked)
    (hconsistent : Consistent graph maxActive state) (index : Nat) (success : Bool) :
    Effect state (.finish index success) (state.step (.finish index success)).1
      (state.step (.finish index success)).2 := by
  simp only [step, finish]
  cases hrow : state.tasks[index]? with
  | none => exact .unchanged _ _
  | some row =>
      by_cases hreserved : row.phase = .reserved
      · simp only [if_neg (not_not.mpr hreserved)]
        by_cases hterminal : state.terminal = .continuing
        · cases success with
          | true =>
              have hretired := hconsistent.retireEdges_settled hlinked hterminal hrow hreserved
              rw [← hconsistent.graph_eq] at hretired
              simp only [Bool.not_true, Bool.false_and, Bool.false_eq_true, if_false, ne_eq,
                hterminal, not_true_eq_false, hretired]
              simpa only [hterminal] using Effect.succeeded index row hrow hreserved hterminal
          | false =>
              simp only [Bool.not_false, hterminal, decide_true, Bool.and_self, if_true, ne_eq,
                reduceCtorEq, not_false_eq_true]
              exact .settled index false row .failed hrow hreserved (by simp)
                fun hstopped => absurd hterminal hstopped
        · simp only [hterminal, decide_false, Bool.and_false, Bool.false_eq_true, if_false, ne_eq,
            not_false_eq_true, if_true]
          exact .settled index success row state.terminal hrow hreserved hterminal fun _ => rfl
      · simp only [ne_eq, hreserved, not_false_eq_true, if_true]
        exact .unchanged _ _

theorem refuse_effect (state : DagState) (index : Nat) :
    Effect state (.refuse index) (state.step (.refuse index)).1 (state.step (.refuse index)).2 := by
  simp only [step, refuse]
  cases hrow : state.tasks[index]? with
  | none => exact .unchanged _ _
  | some row =>
      by_cases hreserved : row.phase = .reserved
      · simp only [if_neg (not_not.mpr hreserved)]
        refine .refused index row _ hrow hreserved ?_ ?_
        · by_cases hterminal : state.terminal = .continuing <;> simp [hterminal]
        · intro hstopped
          simp [hstopped]
      · simp only [ne_eq, hreserved, not_false_eq_true, if_true]
        exact .unchanged _ _

theorem stop_effect (state : DagState) (reason : DagTerminal) :
    Effect state (.stop reason) (state.step (.stop reason)).1 (state.step (.stop reason)).2 := by
  simp only [step, stop]
  by_cases hreason : reason = .continuing
  · rw [if_pos hreason]
    exact .unchanged _ _
  · rw [if_neg hreason]
    refine .stopped reason _ ?_ ?_
    · by_cases hterminal : state.terminal = .continuing <;> simp [hterminal, hreason]
    · intro hstopped
      simp [hstopped]

/-- Every call on a consistent state has one of the listed effects. -/
theorem Consistent.effect (hlinked : graph.Linked)
    (hconsistent : Consistent graph maxActive state) (request : DagRequest) :
    Effect state request (state.step request).1 (state.step request).2 := by
  cases request with
  | claimReady capacity => exact claimReady_effect state capacity
  | finish index success => exact hconsistent.finish_effect hlinked index success
  | refuse index => exact refuse_effect state index
  | stop reason => exact stop_effect state reason

/-- Settling a reservation under a terminal reason keeps the aggregate fields. -/
theorem Consistent.settle (hconsistent : Consistent graph maxActive state)
    {index : Nat} {row : DagTaskEntry} (hrow : state.tasks[index]? = some row)
    (hreserved : row.phase = .reserved) {phase : DagTaskPhase} (hphase : phase ≠ .reserved)
    {terminal : DagTerminal} (hstopped : terminal ≠ .continuing) {completed : Nat}
    (hcompleted : completed = state.completed + if phase = .finished then 1 else 0) :
    Consistent graph maxActive
      { state with
        tasks := state.tasks.set index { row with phase := phase }
        active := state.active - 1
        completed := completed
        terminal := terminal } := by
  obtain ⟨hgraph, hmax, hlength, hactive, hle, hcount, _, _⟩ := hconsistent
  have hcountReserved := countPhase_set hrow { row with phase := phase } .reserved
  have hcountFinished := countPhase_set hrow { row with phase := phase } .finished
  simp only [hreserved, hphase, reduceCtorEq, if_true, if_false] at hcountReserved hcountFinished
  refine ⟨hgraph, hmax, ?_, ?_, ?_, ?_, fun hcontinuing => absurd hcontinuing hstopped,
    fun hcontinuing => absurd hcontinuing hstopped⟩
  · simp only [List.length_set, hlength]
  · simp only
    omega
  · simp only
    omega
  · simp only
    omega

/-- A claim scan keeps the table's length. -/
theorem ScanSpec.length_eq {limit index admitted : Nat} {rows : List DagTaskEntry}
    {scanned : List DagTaskEntry × List Nat} (hscan : ScanSpec limit index admitted rows scanned) :
    scanned.1.length = rows.length := by
  have hnone (offset : Nat) : scanned.1[offset]? = none ↔ rows[offset]? = none := by
    rw [hscan.rows_eq offset]
    by_cases hmem : index + offset ∈ scanned.2 <;> simp [hmem]
  have hle := List.getElem?_eq_none_iff.mp ((hnone rows.length).mpr (by simp))
  have hge := List.getElem?_eq_none_iff.mp ((hnone scanned.1.length).mp (by simp))
  omega

/-- The phase a task has after a claim scan over the whole table. -/
theorem ScanSpec.getElem?_phases {limit : Nat} {rows : List DagTaskEntry}
    {scanned : List DagTaskEntry × List Nat} (hscan : ScanSpec limit 0 0 rows scanned)
    (task : Nat) :
    (phases scanned.1)[task]? =
      if task ∈ scanned.2 then some .reserved else (phases rows)[task]? := by
  have hrow := hscan.rows_eq task
  simp only [Nat.zero_add] at hrow
  rw [DagState.getElem?_phases, DagState.getElem?_phases, hrow]
  by_cases hmem : task ∈ scanned.2
  · obtain ⟨_, row, hfound, _⟩ := hscan.ready task hmem
    rw [Nat.sub_zero] at hfound
    simp [hmem, hfound, reserve]
  · simp [hmem]

/-- A claimed task was pending. -/
theorem ScanSpec.pending {limit : Nat} {rows : List DagTaskEntry}
    {scanned : List DagTaskEntry × List Nat} (hscan : ScanSpec limit 0 0 rows scanned)
    {task : Nat} (hmem : task ∈ scanned.2) :
    ∃ row, rows[task]? = some row ∧ row.phase = .pending ∧ row.remaining = 0 := by
  obtain ⟨_, row, hfound, hready⟩ := hscan.ready task hmem
  exact ⟨row, by simpa using hfound, isReady_iff.mp hready⟩

/-- Claiming finishes nothing. -/
theorem ScanSpec.isFinished_eq {limit : Nat} {rows : List DagTaskEntry}
    {scanned : List DagTaskEntry × List Nat} (hscan : ScanSpec limit 0 0 rows scanned) :
    isFinished scanned.1 = isFinished rows := by
  funext task
  simp only [isFinished, hscan.getElem?_phases task]
  by_cases hmem : task ∈ scanned.2
  · obtain ⟨row, hrow, hpending, _⟩ := hscan.pending hmem
    simp [hmem, DagState.getElem?_phases, hrow, hpending]
  · simp [hmem]

/-- Counters after a successful finish: the finished task no longer blocks. -/
theorem Consistent.remaining_retire (hconsistent : Consistent graph maxActive state)
    (hterminal : state.terminal = .continuing) {index : Nat} {row : DagTaskEntry}
    (hrow : state.tasks[index]? = some row) (hreserved : row.phase = .reserved)
    (task : Nat) (next : DagTaskEntry)
    (hnext : (retire index graph.pairs
      (state.tasks.set index { row with phase := .finished }))[task]? = some next) :
    next.remaining = openInto graph.pairs
      (isFinished (state.tasks.set index { row with phase := .finished })) task := by
  have hopenIndex : isFinished state.tasks index = false := by
    simp [isFinished, DagState.getElem?_phases, hrow, hreserved]
  have hopen := openInto_retire graph.pairs index task hopenIndex
    (isFinished_set hrow)
  rw [retire, List.getElem?_mapIdx, Option.map_eq_some_iff] at hnext
  obtain ⟨other, hother, rfl⟩ := hnext
  have hremaining := hconsistent.remaining_set hterminal hrow hother
  show other.remaining - graph.pairs.count (index, task) = _
  omega

/-- A claim keeps the state consistent: it moves tasks from pending to reserved. -/
theorem Consistent.claim (hconsistent : Consistent graph maxActive state)
    (hterminal : state.terminal = .continuing) {limit : Nat}
    (hlimit : limit ≤ state.maxActive - state.active) {scanned : List DagTaskEntry × List Nat}
    (hscan : ScanSpec limit 0 0 state.tasks scanned) :
    Consistent graph maxActive
      { state with tasks := scanned.1, active := state.active + scanned.2.length } := by
  have hbounded := hscan.bounded
  obtain ⟨hgraph, hmax, hlength, hactive, hle, hcompleted, hremaining, hrefused⟩ := hconsistent
  refine ⟨hgraph, hmax, ?_, ?_, ?_, ?_, ?_, ?_⟩
  · simp only [hscan.length_eq, hlength]
  · simp only [hscan.reserved, hactive]
  · simp only
    omega
  · simp only [hscan.finished, hcompleted]
  · intro _ task row hrow
    simp only at hrow
    rw [hscan.isFinished_eq]
    have hscanned := hscan.rows_eq task
    simp only [Nat.zero_add] at hscanned
    rw [hscanned] at hrow
    by_cases hmem : task ∈ scanned.2
    · rw [if_pos hmem, Option.map_eq_some_iff] at hrow
      obtain ⟨previous, hprevious, rfl⟩ := hrow
      exact hremaining hterminal task previous hprevious
    · rw [if_neg hmem] at hrow
      exact hremaining hterminal task row hrow
  · intro _ row hrow
    obtain ⟨task, htask⟩ := List.getElem?_of_mem hrow
    have hphase := hscan.getElem?_phases task
    rw [DagState.getElem?_phases, htask] at hphase
    by_cases hmem : task ∈ scanned.2
    · rw [if_pos hmem] at hphase
      simp only [Option.map_some, Option.some.injEq] at hphase
      simp [hphase]
    · rw [if_neg hmem, DagState.getElem?_phases] at hphase
      obtain ⟨previous, hprevious, hequal⟩ := Option.map_eq_some_iff.mp hphase.symm
      rw [← hequal]
      exact hrefused hterminal previous (List.mem_of_getElem? hprevious)

/-- A successful finish keeps the state consistent: the counters follow the edges. -/
theorem Consistent.succeed (hconsistent : Consistent graph maxActive state)
    (hterminal : state.terminal = .continuing) {index : Nat} {row : DagTaskEntry}
    (hrow : state.tasks[index]? = some row) (hreserved : row.phase = .reserved) :
    Consistent graph maxActive
      { state with
        tasks := retire index state.graph.pairs
          (state.tasks.set index { row with phase := .finished })
        active := state.active - 1
        completed := state.completed + 1 } := by
  have hretired := hconsistent.remaining_retire hterminal hrow hreserved
  obtain ⟨hgraph, hmax, hlength, hactive, hle, hcompleted, _, hrefused⟩ := hconsistent
  have hcountReserved := countPhase_set hrow { row with phase := .finished } .reserved
  have hcountFinished := countPhase_set hrow { row with phase := .finished } .finished
  simp only [hreserved, reduceCtorEq, if_true, if_false] at hcountReserved hcountFinished
  refine ⟨hgraph, hmax, ?_, ?_, ?_, ?_, ?_, ?_⟩
  · simp only [retire, List.length_mapIdx, List.length_set, hlength]
  · simp only [countPhase, phases_retire] at hcountReserved hactive ⊢
    omega
  · simp only
    omega
  · simp only [countPhase, phases_retire] at hcountFinished hcompleted ⊢
    omega
  · intro _ task next hnext
    simp only [hgraph] at hnext ⊢
    rw [isFinished_retire]
    exact hretired task next hnext
  · intro _ next hnext
    have hphase : next.phase ∈ phases (state.tasks.set index { row with phase := .finished }) := by
      rw [← phases_retire index state.graph.pairs]
      exact List.mem_map_of_mem hnext
    rw [phases_set] at hphase
    rcases List.mem_or_eq_of_mem_set hphase with hold | hnew
    · obtain ⟨previous, hprevious, hequal⟩ := List.mem_map.mp hold
      rw [← hequal]
      exact hrefused hterminal previous hprevious
    · simp [hnew]

/-- Every effect keeps the state consistent. -/
theorem Consistent.preserved (hconsistent : Consistent graph maxActive state)
    {request : DagRequest} {next : DagState} {reply : DagReply}
    (heffect : Effect state request next reply) : Consistent graph maxActive next := by
  cases heffect with
  | unchanged => exact hconsistent
  | claimed capacity limit scanned hterminal hlimit hscan =>
      exact hconsistent.claim hterminal hlimit hscan
  | succeeded index row hrow hreserved hterminal =>
      exact hconsistent.succeed hterminal hrow hreserved
  | settled index success row terminal hrow hreserved hstopped hlatched =>
      exact hconsistent.settle hrow hreserved (by simp) hstopped (by simp)
  | refused index row terminal hrow hreserved hstopped hlatched =>
      exact hconsistent.settle hrow hreserved (by simp) hstopped (by simp)
  | stopped reason terminal hstopped hlatched =>
      obtain ⟨hgraph, hmax, hlength, hactive, hle, hcompleted, _, _⟩ := hconsistent
      exact ⟨hgraph, hmax, hlength, hactive, hle, hcompleted,
        fun hcontinuing => absurd hcontinuing hstopped,
        fun hcontinuing => absurd hcontinuing hstopped⟩

/-- Settling a reservation as finished is never refused. -/
theorem Consistent.finish_ok (hlinked : graph.Linked)
    (hconsistent : Consistent graph maxActive state) {index : Nat} {row : DagTaskEntry}
    (hrow : state.tasks[index]? = some row) (hreserved : row.phase = .reserved) (success : Bool) :
    (state.finish index success).2 = .ok := by
  simp only [finish, hrow, if_neg (not_not.mpr hreserved)]
  by_cases hterminal : state.terminal = .continuing
  · cases success with
    | true =>
        have hretired := hconsistent.retireEdges_settled hlinked hterminal hrow hreserved
        rw [← hconsistent.graph_eq] at hretired
        simp [hterminal, hretired]
    | false => simp [hterminal]
  · simp [hterminal]

/-- A reservation has been settled: one task has moved to its last phase. -/
structure Settles (graph : Dependencies) (maxActive : Nat) (state : DagState) (index : Nat)
    (phase : DagTaskPhase) (terminal : DagTerminal) (next : DagState) : Prop where
  consistent : Consistent graph maxActive next
  phases_eq : phases next.tasks = (phases state.tasks).set index phase
  terminal_eq : next.terminal = terminal

/-- Finishing a reserved task settles it. -/
theorem Consistent.finish_settles (hlinked : graph.Linked)
    (hconsistent : Consistent graph maxActive state) {index : Nat} {row : DagTaskEntry}
    (hrow : state.tasks[index]? = some row) (hreserved : row.phase = .reserved) (success : Bool) :
    Settles graph maxActive state index .finished
      (if !success && state.terminal = .continuing then .failed else state.terminal)
      (state.finish index success).1 := by
  have hnext := hconsistent.preserved (hconsistent.finish_effect hlinked index success)
  refine ⟨hnext, ?_, ?_⟩
  · simp only [finish, hrow, if_neg (not_not.mpr hreserved)]
    by_cases hterminal : (if !success && state.terminal = .continuing then DagTerminal.failed
        else state.terminal) = .continuing
    · have hcontinuing : state.terminal = .continuing := by
        by_contra hstopped
        simp [hstopped] at hterminal
      have hretired := hconsistent.retireEdges_settled hlinked hcontinuing hrow hreserved
      rw [← hconsistent.graph_eq] at hretired
      simp only [hterminal, ne_eq, not_true_eq_false, if_false, hretired, phases_retire, phases_set]
    · simp only [ne_eq, hterminal, not_false_eq_true, if_true, phases_set]
  · simp only [finish, hrow, if_neg (not_not.mpr hreserved)]
    generalize (if !success && state.terminal = .continuing then DagTerminal.failed
      else state.terminal) = terminal
    split <;> rfl

/-- Refusing a reserved task settles it. -/
theorem Consistent.refuse_settles (hconsistent : Consistent graph maxActive state) {index : Nat}
    {row : DagTaskEntry} (hrow : state.tasks[index]? = some row) (hreserved : row.phase = .reserved) :
    (state.refuse index).2 = .ok ∧
      Settles graph maxActive state index .refused
        (if state.terminal = .continuing then .admissionRefused else state.terminal)
        (state.refuse index).1 := by
  have hnext := hconsistent.preserved (refuse_effect state index)
  simp only [step] at hnext
  refine ⟨?_, hnext, ?_, ?_⟩ <;> simp only [refuse, hrow, if_neg (not_not.mpr hreserved), phases_set]

end Calls

/-! ## The initial state -/

/-- The task table with the edges counted at their targets. -/
def counted (edges : List (Nat × Nat)) (tasks : List DagTaskEntry) : List DagTaskEntry :=
  tasks.mapIdx fun task row =>
    { row with remaining := row.remaining + openInto edges (fun _ => false) task }

theorem countEdges_eq :
    ∀ (edges : List (Nat × Nat)) (tasks : List DagTaskEntry),
      (∀ edge ∈ edges, edge.1 < tasks.length ∧ edge.2 < tasks.length) →
      countEdges edges tasks = .ok (counted edges tasks) := by
  intro edges
  induction edges with
  | nil =>
      intro tasks _
      rw [countEdges]
      congr 1
      apply List.ext_getElem?
      intro task
      rw [counted, List.getElem?_mapIdx]
      cases tasks[task]? <;> rfl
  | cons edge rest ih =>
      intro tasks hrange
      obtain ⟨source, target⟩ := edge
      obtain ⟨hsource, htarget⟩ := hrange (source, target) (by simp)
      have hinside : (decide (source ≥ tasks.length) || decide (target ≥ tasks.length)) = false := by
        simp only [Bool.or_eq_false_iff, decide_eq_false_iff_not, ge_iff_le, Nat.not_le]
        exact ⟨hsource, htarget⟩
      rw [countEdges, hinside, if_neg (by simp), ih]
      · congr 1
        apply List.ext_getElem?
        intro task
        simp only [counted, List.getElem?_mapIdx, List.getElem?_modify]
        cases tasks[task]? with
        | none => rfl
        | some row =>
            by_cases htask : target = task
            · simp [htask, openInto]
              omega
            · simp [htask, openInto]
      · intro edge hedge
        simpa using hrange edge (by simp [hedge])

/-- Counting edges touches no phase. -/
theorem phase_of_mem_counted {edges : List (Nat × Nat)} {count : Nat} {row : DagTaskEntry}
    (hrow : row ∈ counted edges (List.replicate count ⟨0, .pending⟩)) : row.phase = .pending := by
  obtain ⟨task, htask, rfl⟩ := List.mem_mapIdx.mp hrow
  simp

theorem countPhase_eq_zero {tasks : List DagTaskEntry} {phase : DagTaskPhase}
    (hphase : phase ≠ .pending) (htasks : ∀ row ∈ tasks, row.phase = .pending) :
    countPhase tasks phase = 0 := by
  rw [countPhase, List.count_eq_zero]
  intro hmem
  obtain ⟨row, hrow, rfl⟩ := List.mem_map.mp hmem
  exact hphase (htasks row hrow)

/-- An accepted graph and a positive bound give a consistent state in which
nothing has been claimed. -/
theorem create_consistent {graph : Dependencies} {maxActive : Nat} (haccepted : graph.Accepted)
    (hpositive : 1 ≤ maxActive) :
    ∃ init, create graph maxActive = .ok init ∧ Consistent graph maxActive init ∧
      init.terminal = .continuing ∧ ∀ row ∈ init.tasks, row.phase = .pending := by
  have hbounds : (decide (graph.taskCount = 0) || decide (graph.taskCount > maxTasks) ||
      decide (graph.edgeCount > maxEdges)) = false := by
    have hpos := haccepted.count_pos
    have hle := haccepted.count_le
    have hedges : graph.edgeCount ≤ maxEdges := haccepted.linked.edges_le
    simp only [Bool.or_eq_false_iff, decide_eq_false_iff_not]
    omega
  have hcount := countEdges_eq graph.pairs (List.replicate graph.taskCount ⟨0, .pending⟩)
    (by simpa using haccepted.linked.mem_pairs)
  have hphases : ∀ row ∈ counted graph.pairs (List.replicate graph.taskCount ⟨0, .pending⟩),
      row.phase = .pending := fun row => phase_of_mem_counted
  refine ⟨⟨graph, counted graph.pairs (List.replicate graph.taskCount ⟨0, .pending⟩), maxActive, 0, 0,
    .continuing⟩, ?_, ⟨rfl, rfl, by simp [counted], ?_, Nat.zero_le _, ?_, ?_, ?_⟩, rfl, hphases⟩
  · rw [create, if_neg (by omega), hbounds, if_neg (by simp), hcount]
  · exact (countPhase_eq_zero (by simp) hphases).symm
  · exact (countPhase_eq_zero (by simp) hphases).symm
  · intro _ task row hrow
    have hfinished : isFinished (counted graph.pairs
        (List.replicate graph.taskCount ⟨0, .pending⟩)) = fun _ => false := by
      funext other
      rw [← Bool.not_eq_true, isFinished_eq_true_iff]
      rintro ⟨found, hfound, hphase⟩
      rw [hphases found (List.mem_of_getElem? hfound)] at hphase
      contradiction
    simp only at hrow ⊢
    rw [hfinished]
    rw [counted, List.getElem?_mapIdx, Option.map_eq_some_iff] at hrow
    obtain ⟨blank, hblank, rfl⟩ := hrow
    simp [List.eq_of_mem_replicate (List.mem_of_getElem? hblank)]
  · intro _ row hrow
    simp [hphases row hrow]

/-! ## Whole runs -/

/-- The indices the claims of a run returned, in order. -/
def claimedIn (history : List (DagRequest × DagReply)) : List Nat :=
  history.flatMap fun entry => entry.2.claimed

/-- The entry a successful settlement of `task` leaves in the history. -/
def successOf (task : Nat) : DagRequest × DagReply := (.finish task true, ⟨.ok, []⟩)

/-- The state agrees with the history that led to it. -/
structure Journal (graph : Dependencies) (history : List (DagRequest × DagReply))
    (state : DagState) : Prop where
  nodup : (claimedIn history).Nodup
  claimed_iff : ∀ task, task ∈ claimedIn history ↔
    ∃ row, state.tasks[task]? = some row ∧ row.phase ≠ .pending
  succeeded : state.terminal = .continuing →
    ∀ task, isFinished state.tasks task = true → successOf task ∈ history
  ordered : ∀ before request reply after, history = before ++ (request, reply) :: after →
    ∀ task ∈ reply.claimed, ∀ edge ∈ graph.pairs, edge.2 = task → successOf edge.1 ∈ before

section Runs

variable {graph : Dependencies} {maxActive : Nat} {state : DagState}
  {history : List (DagRequest × DagReply)}

@[simp]
theorem claimedIn_append_single (request : DagRequest) (reply : DagReply) :
    claimedIn (history ++ [(request, reply)]) = claimedIn history ++ reply.claimed := by
  simp [claimedIn]

/-- The order of claims with one entry more: its claims come after their predecessors. -/
theorem Journal.ordered_append (hjournal : Journal graph history state)
    {last : DagRequest × DagReply}
    (hlast : ∀ task ∈ last.2.claimed, ∀ edge ∈ graph.pairs, edge.2 = task →
      successOf edge.1 ∈ history) :
    ∀ before request reply after, history ++ [last] = before ++ (request, reply) :: after →
      ∀ task ∈ reply.claimed, ∀ edge ∈ graph.pairs, edge.2 = task → successOf edge.1 ∈ before := by
  intro before request reply after hsplit
  exact forall_split_append (fun before entry => ∀ task ∈ entry.2.claimed, ∀ edge ∈ graph.pairs,
    edge.2 = task → successOf edge.1 ∈ before)
    (fun before entry => hjournal.ordered before entry.1 entry.2) hlast before (request, reply) after
    hsplit

/-- An entry without claims keeps the order of claims. -/
theorem Journal.ordered_quiet (hjournal : Journal graph history state) (request : DagRequest)
    (status : Salts) :
    ∀ before other reply after, history ++ [(request, ⟨status, []⟩)] =
      before ++ (other, reply) :: after →
    ∀ task ∈ reply.claimed, ∀ edge ∈ graph.pairs, edge.2 = task → successOf edge.1 ∈ before :=
  hjournal.ordered_append (by simp)

/-- Settling a reservation claims nothing and leaves no task pending. -/
theorem Journal.claimed_set (hjournal : Journal graph history state) {index : Nat}
    {row : DagTaskEntry} (hrow : state.tasks[index]? = some row) (hreserved : row.phase = .reserved)
    (phase : DagTaskPhase) (hphase : phase ≠ .pending) (task : Nat) :
    task ∈ claimedIn history ↔ ∃ found,
      (state.tasks.set index { row with phase := phase })[task]? = some found ∧
        found.phase ≠ .pending := by
  obtain ⟨hlt, _⟩ := List.getElem?_eq_some_iff.mp hrow
  rw [hjournal.claimed_iff, List.getElem?_set]
  by_cases htask : index = task
  · subst htask
    rw [hrow, if_pos rfl, if_pos hlt]
    simp [hreserved, hphase]
  · simp [htask]

/-- A claim extends the journal: what it takes was pending, and its counter was zero. -/
theorem Journal.claim (hconsistent : Consistent graph maxActive state)
    (hjournal : Journal graph history state) (hterminal : state.terminal = .continuing)
    {limit : Nat} {scanned : List DagTaskEntry × List Nat}
    (hscan : ScanSpec limit 0 0 state.tasks scanned) (capacity : Nat) :
    Journal graph (history ++ [(.claimReady capacity, ⟨.ok, scanned.2⟩)])
      { state with tasks := scanned.1, active := state.active + scanned.2.length } := by
  refine ⟨?_, ?_, ?_, ?_⟩
  · simp only [claimedIn_append_single, List.nodup_append]
    refine ⟨hjournal.nodup, hscan.nodup, fun first hfirst second hsecond hequal => ?_⟩
    subst hequal
    obtain ⟨row, hrow, hpending, _⟩ := hscan.pending hsecond
    obtain ⟨found, hfound, hnot⟩ := (hjournal.claimed_iff first).mp hfirst
    rw [hrow, Option.some.injEq] at hfound
    exact hnot (hfound ▸ hpending)
  · intro task
    have hrows := hscan.rows_eq task
    simp only [Nat.zero_add] at hrows
    simp only [claimedIn_append_single, List.mem_append, hjournal.claimed_iff, hrows]
    by_cases hmem : task ∈ scanned.2
    · obtain ⟨row, hrow, _, _⟩ := hscan.pending hmem
      simp [hmem, hrow, reserve]
    · simp [hmem]
  · intro _ task hfinished
    simp only [hscan.isFinished_eq] at hfinished
    exact List.mem_append_left _ (hjournal.succeeded hterminal task hfinished)
  · refine hjournal.ordered_append fun task htask edge hedge htarget => ?_
    obtain ⟨row, hrow, _, hzero⟩ := hscan.pending htask
    have hopen := hconsistent.remaining_eq hterminal task row hrow
    rw [hzero, eq_comm, openInto_eq_zero_iff] at hopen
    exact hjournal.succeeded hterminal edge.1 (hopen edge hedge htarget)

/-- Every effect extends the journal. -/
theorem Journal.extend (hconsistent : Consistent graph maxActive state)
    (hjournal : Journal graph history state) {request : DagRequest} {next : DagState}
    {reply : DagReply} (heffect : Effect state request next reply) :
    Journal graph (history ++ [(request, reply)]) next := by
  cases heffect with
  | unchanged request status =>
      refine ⟨by simpa using hjournal.nodup, by simpa using hjournal.claimed_iff, ?_,
        hjournal.ordered_quiet _ _⟩
      intro hterminal task hfinished
      exact List.mem_append_left _ (hjournal.succeeded hterminal task hfinished)
  | claimed capacity limit scanned hterminal hlimit hscan =>
      exact hjournal.claim hconsistent hterminal hscan capacity
  | succeeded index row hrow hreserved hterminal =>
      refine ⟨by simpa using hjournal.nodup, ?_, ?_, hjournal.ordered_quiet _ _⟩
      · intro task
        simp only [claimedIn_append_single, List.append_nil,
          hjournal.claimed_set hrow hreserved .finished (by simp), retire,
          List.getElem?_mapIdx, Option.map_eq_some_iff, ↓existsAndEq, and_true]
      · intro _ task hfinished
        simp only [isFinished_retire] at hfinished
        rw [isFinished_set hrow, Bool.or_eq_true, decide_eq_true_eq] at hfinished
        rcases hfinished with rfl | hold
        · exact List.mem_append_right _ (by simp [successOf])
        · exact List.mem_append_left _ (hjournal.succeeded hterminal task hold)
  | settled index success row terminal hrow hreserved hstopped hlatched =>
      exact ⟨by simpa using hjournal.nodup,
        by simpa using hjournal.claimed_set hrow hreserved .finished (by simp),
        fun hcontinuing => absurd hcontinuing hstopped, hjournal.ordered_quiet _ _⟩
  | refused index row terminal hrow hreserved hstopped hlatched =>
      exact ⟨by simpa using hjournal.nodup,
        by simpa using hjournal.claimed_set hrow hreserved .refused (by simp),
        fun hcontinuing => absurd hcontinuing hstopped, hjournal.ordered_quiet _ _⟩
  | stopped reason terminal hstopped hlatched =>
      exact ⟨by simpa using hjournal.nodup, by simpa using hjournal.claimed_iff,
        fun hcontinuing => absurd hcontinuing hstopped, hjournal.ordered_quiet _ _⟩

/-- A terminal reason is final, and nothing is claimed under it. -/
theorem Effect.latched {request : DagRequest} {next : DagState} {reply : DagReply}
    (heffect : Effect state request next reply) (hstopped : state.terminal ≠ .continuing) :
    next.terminal = state.terminal ∧ reply.claimed = [] := by
  cases heffect with
  | unchanged => exact ⟨rfl, rfl⟩
  | claimed capacity limit scanned hterminal => exact absurd hterminal hstopped
  | succeeded index row hrow hreserved hterminal => exact absurd hterminal hstopped
  | settled index success row terminal hrow hreserved _ hlatched =>
      exact ⟨hlatched hstopped, rfl⟩
  | refused index row terminal hrow hreserved _ hlatched => exact ⟨hlatched hstopped, rfl⟩
  | stopped reason terminal _ hlatched => exact ⟨hlatched hstopped, rfl⟩

/-- Consistency and the journal hold together along every run. -/
theorem run_journal (haccepted : graph.Accepted) {init : DagState}
    (hconsistent : Consistent graph maxActive init)
    (hpending : ∀ row ∈ init.tasks, row.phase = .pending)
    (hrun : Run step init history state) :
    Consistent graph maxActive state ∧ Journal graph history state := by
  refine hrun.invariant (fun history state =>
    Consistent graph maxActive state ∧ Journal graph history state) ⟨hconsistent, ?_⟩ ?_
  · have hnone (task : Nat) (row : DagTaskEntry) (hrow : init.tasks[task]? = some row) :
        row.phase = .pending := hpending row (List.mem_of_getElem? hrow)
    refine ⟨List.nodup_nil, fun task => ?_, fun _ task hfinished => ?_, by simp⟩
    · simp only [claimedIn, List.flatMap_nil, List.not_mem_nil, false_iff]
      rintro ⟨row, hrow, hphase⟩
      exact hphase (hnone task row hrow)
    · obtain ⟨row, hrow, hphase⟩ := isFinished_eq_true_iff.mp hfinished
      rw [hnone task row hrow] at hphase
      contradiction
  · rintro past current request _ ⟨hcurrent, hjournal⟩
    have heffect := hcurrent.effect haccepted.linked request
    exact ⟨hcurrent.preserved heffect, hjournal.extend hcurrent heffect⟩

/-- Under a terminal reason a run changes no reason and claims nothing. -/
theorem run_latched (hlinked : graph.Linked) (hconsistent : Consistent graph maxActive state)
    (hstopped : state.terminal ≠ .continuing) {last : DagState}
    (hrun : Run step state history last) :
    Consistent graph maxActive last ∧ last.terminal = state.terminal ∧ claimedIn history = [] := by
  refine hrun.invariant (fun history last => Consistent graph maxActive last ∧
    last.terminal = state.terminal ∧ claimedIn history = []) ⟨hconsistent, rfl, rfl⟩ ?_
  rintro past current request _ ⟨hcurrent, hterminal, hclaimed⟩
  have heffect := hcurrent.effect hlinked request
  obtain ⟨hsame, hquiet⟩ := heffect.latched (hterminal ▸ hstopped)
  exact ⟨hcurrent.preserved heffect, hsame.trans hterminal, by simp [hclaimed, hquiet]⟩

theorem one_le_of_create {init : DagState} (hinit : create graph maxActive = .ok init) :
    1 ≤ maxActive := by
  by_contra hzero
  simp [create, show maxActive = 0 by omega] at hinit

/-- Every state reached from a fresh one is consistent with the graph it counts. -/
theorem consistent_of_run {metadata : List (Option Json)}
    (hgraph : Dependencies.create metadata = .ok graph) {init : DagState}
    (hinit : create graph maxActive = .ok init) (hrun : Run step init history state) :
    graph.Accepted ∧ Consistent graph maxActive state ∧ Journal graph history state := by
  have haccepted := Dependencies.accepted_of_create hgraph
  obtain ⟨fresh, hfresh, hconsistent, _, hpending⟩ :=
    create_consistent haccepted (one_le_of_create hinit)
  obtain rfl : fresh = init := by simpa [hfresh] using hinit
  exact ⟨haccepted, run_journal haccepted hconsistent hpending hrun⟩

/-- What a caller may rely on after any run. -/
structure Safe (graph : Dependencies) (maxActive : Nat) (history : List (DagRequest × DagReply))
    (state : DagState) : Prop where
  active_eq : state.active = countPhase state.tasks .reserved
  active_le : state.active ≤ maxActive
  completed_eq : state.completed = countPhase state.tasks .finished
  claimed_once : (claimedIn history).Nodup
  predecessors_succeeded : ∀ before request reply after,
    history = before ++ (request, reply) :: after → ∀ task ∈ reply.claimed,
      ∀ edge ∈ graph.pairs, edge.2 = task → successOf edge.1 ∈ before
  remaining_eq : state.terminal = .continuing → ∀ task row, state.tasks[task]? = some row →
    row.remaining = openInto graph.pairs (isFinished state.tasks) task
  edges_retire : state.terminal = .continuing → ∀ index row, state.tasks[index]? = some row →
    row.phase = .reserved → (retireEdges index state.graph.pairs
      (state.tasks.set index { row with phase := .finished })).2 = .ok
  finish_ok : ∀ index row success, state.tasks[index]? = some row → row.phase = .reserved →
    (state.finish index success).2 = .ok
  latched : state.terminal ≠ .continuing → ∀ later last, Run step state later last →
    last.terminal = state.terminal ∧ claimedIn later = []

/-- Every state reached from a fresh one is safe, whatever calls were made. -/
theorem run_safe (metadata : List (Option Json)) (graph : Dependencies) (maxActive : Nat)
    (hgraph : Dependencies.create metadata = .ok graph) (hpositive : 1 ≤ maxActive) :
    ∃ init, create graph maxActive = .ok init ∧
      ∀ history state, Run step init history state → Safe graph maxActive history state := by
  have haccepted := Dependencies.accepted_of_create hgraph
  obtain ⟨init, hcreate, hinit, _, hpending⟩ := create_consistent haccepted hpositive
  refine ⟨init, hcreate, fun history state hrun => ?_⟩
  obtain ⟨hconsistent, hjournal⟩ := run_journal haccepted hinit hpending hrun
  refine ⟨hconsistent.active_eq, hconsistent.active_le, hconsistent.completed_eq, hjournal.nodup,
    hjournal.ordered, hconsistent.remaining_eq, ?_, ?_, ?_⟩
  · intro hterminal index row hrow hreserved
    rw [hconsistent.graph_eq, hconsistent.retireEdges_settled haccepted.linked hterminal hrow
      hreserved]
  · intro index row success hrow hreserved
    exact hconsistent.finish_ok haccepted.linked hrow hreserved success
  · intro hstopped later last hlater
    exact (run_latched haccepted.linked hconsistent hstopped hlater).2

/-- Two tasks, the second of which names the first one twice. -/
def doubled : List (Option Json) :=
  [some (.object [(ascii "name", .string (ascii "a"))]),
    some (.object [(ascii "name", .string (ascii "b")),
      (ascii "depends_on", .array [.string (ascii "a"), .string (ascii "a")])])]

/-- The projection of `doubled`: its newest edge heads the list of task `a`. -/
def doubledGraph : Dependencies where
  tasks := [⟨ascii "a", some 1⟩, ⟨ascii "b", none⟩]
  edges := [⟨0, 1, none⟩, ⟨0, 1, some 0⟩]
  nameSlots := [none, none, none, none, some 0, some 1, none, none]

theorem create_doubled : Dependencies.create doubled = .ok doubledGraph := by rfl

theorem run_safe_doubled :
    ∃ init, create doubledGraph 1 = .ok init ∧
      ∀ history state, Run step init history state → Safe doubledGraph 1 history state :=
  run_safe doubled doubledGraph 1 create_doubled (by decide)

end Runs

end DagState

end Praktor.Workflow
