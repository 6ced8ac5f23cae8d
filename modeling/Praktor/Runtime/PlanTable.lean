/-
# The plan table over a whole call

`plans` is an array of 64 pointers.  Admission fills it from the front, the loop reads
the plan of the task it runs, and the cleanup at `done` destroys what it finds at the
indices below the task count.  That count is the one of the snapshot, taken before it is
compared with the limit, so the cleanup of a refused snapshot may run past the array.

`executeYaml` is the call seen from the table.  A call that is still in the loop, or
that ended by `abort`, has not reached its cleanup.
-/

import Praktor.Runtime.WorkflowRun

namespace Praktor.Runtime

open Praktor.Data Praktor.Math Praktor.Values Praktor.Workflow

/-- What a call did to the table: the indices it accessed, the plans it made, and the
plans its cleanup destroyed once it was there. -/
structure PlanTrace where
  accesses : List Nat
  created : List SessionPlan
  destroyed : Option (List SessionPlan)

namespace PlanTable

/-- The plan at an index, if the index is inside the table and a plan is there. -/
def planAt (table : PlanTable) (index : Nat) : Option SessionPlan := table.slots[index]?.join

/-- The table as a trace, before the cleanup. -/
def trace (table : PlanTable) : PlanTrace := ⟨table.accesses, table.created, none⟩

/-- The loop at `done`. -/
def cleanup (table : PlanTable) (taskCount : Nat) : PlanTrace :=
  ⟨table.accesses ++ List.range taskCount, table.created,
    some ((List.range taskCount).filterMap table.planAt)⟩

end PlanTable

/-- Whether a turn comes as far as `praktor_c11_orch_session_plan_init_session`, which
reads the plan of the task. -/
def readsPlan (task : SnapshotTask) (root : ValueStore) (input : TurnInput) : Bool :=
  match input.host with
  | .error _ => false
  | .ok destination =>
      match loadTaskTextScope task root destination input.loadSchedule with
      | (.error _, _) => false
      | (.ok _, _) => input.bind = .ok

/-- The table after a turn that claimed a task. -/
def readPlan (state : RuntimeState) (input : TurnInput) (reply : TurnReply) (table : PlanTable) :
    PlanTable :=
  match reply.claimed with
  | none => table
  | some index =>
      match state.owner.snapshot.tasks[index]?, state.owner.world.stores rootStore with
      | some task, some root =>
          if reply.started && readsPlan task root input then table.touch index else table
      | _, _ => table

/-- The loop with its table. -/
def runLoop (library : JsonLibrary) :
    List TurnInput → RuntimeState → PlanTable → RuntimeState × PlanTable
  | [], state, table => (state, table)
  | input :: rest, state, table =>
      let (next, reply) := state.step library input
      runLoop library rest next (readPlan state input reply table)

/-- `praktor_runtime_execute_yaml`, as far as the plan table is concerned. -/
def executeYaml (library : JsonLibrary) (host : RuntimeHost) (request : RuntimeRequest)
    (turns : List TurnInput) : PlanTrace :=
  if !request.admitted then ⟨[], [], none⟩
  else
    let admission := admitYaml host request
    match admission.owner with
    | none => admission.table.cleanup admission.taskCount
    | some owner =>
        match runLoop library turns (.start owner) admission.table with
        | (state, table) =>
            if state.phase = .marshalled then table.cleanup admission.taskCount else table.trace

/-- Every access is inside the array, and the cleanup destroys exactly the plans that
were made, each once. -/
def PlanTableSafe (trace : PlanTrace) : Prop :=
  (∀ index ∈ trace.accesses, index < maxPlans) ∧
    ∀ destroyed, trace.destroyed = some destroyed → destroyed = trace.created

/-! ## A table filled from the front -/

/-- The plans made so far stand at the front of the table, and nothing else is there. -/
structure PlanTable.Filled (table : PlanTable) (count : Nat) : Prop where
  slots_eq : table.slots =
    table.created.map some ++ List.replicate (maxPlans - table.created.length) none
  created_le : table.created.length ≤ count
  accesses_lt : ∀ index ∈ table.accesses, index < count

namespace PlanTable

variable {table : PlanTable} {count : Nat}

theorem filled_blank (count : Nat) : blank.Filled count :=
  ⟨by simp [blank], Nat.zero_le _, by simp [blank]⟩

theorem Filled.touch (hfilled : table.Filled count) {index : Nat} (hindex : index < count) :
    (table.touch index).Filled count := by
  refine ⟨hfilled.slots_eq, hfilled.created_le, fun access haccess => ?_⟩
  rcases List.mem_append.mp haccess with haccess | haccess
  · exact hfilled.accesses_lt access haccess
  · exact List.mem_singleton.mp haccess ▸ hindex

/-- A new plan goes to the first free place. -/
theorem Filled.store (hfilled : table.Filled count) (hroom : table.created.length < count)
    (hcount : count ≤ maxPlans) (plan : SessionPlan) :
    (table.store table.created.length plan).Filled count := by
  refine ⟨?_, by simpa [PlanTable.store] using hroom, fun access haccess => ?_⟩
  · obtain ⟨rest, hrest⟩ : ∃ rest, maxPlans - table.created.length = rest + 1 :=
      ⟨maxPlans - table.created.length - 1, by omega⟩
    have hlater : maxPlans - (table.created.length + 1) = rest := by omega
    simp only [PlanTable.store, hfilled.slots_eq, hrest, List.replicate_succ, List.length_append,
      List.length_singleton, hlater]
    rw [List.set_append_right _ _ (by simp)]
    simp
  · rcases List.mem_append.mp haccess with haccess | haccess
    · exact hfilled.accesses_lt access haccess
    · exact List.mem_singleton.mp haccess ▸ hroom

/-- The cleanup loop collects the plans of the first places. -/
theorem filterMap_planAt (table : PlanTable) (taskCount : Nat) :
    (List.range taskCount).filterMap table.planAt = (table.slots.take taskCount).filterMap id := by
  induction taskCount with
  | zero => simp
  | succ taskCount ih =>
      rw [List.range_succ, List.filterMap_append, ih, List.take_add_one, List.filterMap_append]
      congr 1
      simp only [List.filterMap_cons, List.filterMap_nil, planAt]
      cases table.slots[taskCount]? with
      | none => rfl
      | some slot => cases slot <;> rfl

/-- The cleanup of a table with as many tasks as may have a plan. -/
theorem Filled.cleanup_safe (hfilled : table.Filled count) (hcount : count ≤ maxPlans) :
    PlanTableSafe (table.cleanup count) := by
  refine ⟨fun index hindex => ?_, fun destroyed hdestroyed => ?_⟩
  · rcases List.mem_append.mp hindex with hindex | hindex
    · exact Nat.lt_of_lt_of_le (hfilled.accesses_lt index hindex) hcount
    · exact Nat.lt_of_lt_of_le (List.mem_range.mp hindex) hcount
  · have hfront : (table.created.map some).length ≤ count := by
      simpa using hfilled.created_le
    rw [← Option.some.inj hdestroyed, filterMap_planAt, hfilled.slots_eq, List.take_append,
      List.take_of_length_le hfront, List.take_replicate]
    simp [PlanTable.cleanup, List.filterMap_append]

end PlanTable

/-! ## Admission and loop -/

section Call

variable {host : RuntimeHost} {request : RuntimeRequest}

/-- The plan loop fills the table as far as it comes. -/
theorem makePlans_filled (config : TreeConfig) {count : Nat} (hcount : count ≤ maxPlans)
    (tasks : List SnapshotTask) (index : Nat) (table : PlanTable) (schedule : AllocSchedule)
    (hindex : table.created.length = index) (hlength : index + tasks.length = count)
    (hfilled : table.Filled count) :
    (makePlans config tasks index table schedule).1.Filled count := by
  induction tasks generalizing index table schedule with
  | nil => exact hfilled
  | cons task rest ih =>
      rw [List.length_cons] at hlength
      rw [makePlans]
      split
      · exact hfilled.touch (by omega)
      · subst hindex
        exact ih _ _ _ (by simp [PlanTable.store]) (by omega)
          (hfilled.store (by omega) hcount _)

/-- Admission leaves a table that is filled below the task count, if the snapshot has no
more tasks than the table has places. -/
theorem admitYaml_filled
    (hsmall : host.componentStarts = false ∨
      ∀ snapshot, host.frontEnd request.yaml = .ok snapshot → snapshot.taskCount ≤ maxPlans) :
    (admitYaml host request).taskCount ≤ maxPlans ∧
      (admitYaml host request).table.Filled (admitYaml host request).taskCount := by
  rw [admitYaml]
  split_ifs with hcomponent
  · exact ⟨Nat.zero_le _, PlanTable.filled_blank _⟩
  split
  · exact ⟨Nat.zero_le _, PlanTable.filled_blank _⟩
  rename_i snapshot hfront
  have hcount : snapshot.taskCount ≤ maxPlans := by
    rcases hsmall with hstopped | hsmall
    · simp [hstopped] at hcomponent
    · exact hsmall snapshot hfront
  split_ifs
  · exact ⟨hcount, PlanTable.filled_blank _⟩
  split
  · exact ⟨hcount, PlanTable.filled_blank _⟩
  split
  · exact ⟨hcount, PlanTable.filled_blank _⟩
  rename_i registry _ _ dag schedule _
  have hplans := makePlans_filled host.config hcount snapshot.tasks 0 .blank schedule rfl
    (Nat.zero_add _) (PlanTable.filled_blank _)
  rw [admitPlans]
  split
  · rename_i htable
    rw [htable] at hplans
    exact ⟨hcount, hplans⟩
  · rename_i htable
    rw [htable] at hplans
    split
    · exact ⟨hcount, hplans⟩
    · exact ⟨hcount, hplans⟩

/-- A snapshot with more tasks than places is refused with its own task count. -/
theorem admitYaml_large {snapshot : WorkflowSnapshot} (hadmitted : request.admitted = true)
    (hcomponent : host.componentStarts = true) (hfront : host.frontEnd request.yaml = .ok snapshot)
    (hlarge : maxPlans < snapshot.taskCount) :
    (admitYaml host request).owner = none ∧
      (admitYaml host request).taskCount = snapshot.taskCount := by
  have hlimit := RuntimeRequest.maxTasks_le hadmitted
  have hover : (snapshot.taskCount : Int) > request.options.maxTasks := by omega
  simp [admitYaml, hcomponent, hfront, hover]

/-- The loop reads only where a task below the count was claimed. -/
theorem readPlan_filled {state : RuntimeState} {input : TurnInput} {reply : TurnReply}
    {table : PlanTable} {count : Nat} (hfilled : table.Filled count)
    (hclaimed : ∀ index, reply.claimed = some index → index < count) :
    (readPlan state input reply table).Filled count := by
  rw [readPlan]
  split
  · exact hfilled
  rename_i index hindex
  split
  · split_ifs
    · exact hfilled.touch (hclaimed index hindex)
    · exact hfilled
  · exact hfilled

theorem runLoop_filled {owner : RuntimeOwner}
    (hadmission : (admitYaml host request).owner = some owner) (library : JsonLibrary)
    (turns : List TurnInput) {history : List Turn} {state : RuntimeState}
    (hrun : Run (RuntimeState.step library) (.start owner) history state) {table : PlanTable}
    (hfilled : table.Filled owner.snapshot.taskCount) :
    (runLoop library turns state table).2.Filled owner.snapshot.taskCount := by
  induction turns generalizing history state table with
  | nil => exact hfilled
  | cons input rest ih =>
      obtain ⟨seeded, hentered⟩ := admitYaml_owner hadmission
      have hfacts := run_facts hadmission hentered.root_eq (hrun.extend input)
      have hclaimed := hfacts.claimed_lt (input, (state.step library input).2) (by simp)
      exact ih (hrun.extend input) (readPlan_filled hfilled hclaimed)

/-- The cleanup of a snapshot with more tasks than places reads past the array. -/
theorem executeYaml_large (library : JsonLibrary) {snapshot : WorkflowSnapshot}
    (hadmitted : request.admitted = true) (hcomponent : host.componentStarts = true)
    (hfront : host.frontEnd request.yaml = .ok snapshot) (hlarge : maxPlans < snapshot.taskCount)
    (turns : List TurnInput) : maxPlans ∈ (executeYaml library host request turns).accesses := by
  obtain ⟨howner, hcount⟩ := admitYaml_large hadmitted hcomponent hfront hlarge
  simp only [executeYaml, hadmitted, howner, hcount, Bool.not_true, Bool.false_eq_true, if_false]
  exact List.mem_append_right _ (List.mem_range.mpr hlarge)

/-- For every admitted request the plan table is used safely exactly when the text does
not give more tasks than the table has places. -/
theorem executeYaml_planTableSafe_iff (library : JsonLibrary) (host : RuntimeHost)
    (request : RuntimeRequest) (hadmitted : request.admitted = true) (turns : List TurnInput) :
    PlanTableSafe (executeYaml library host request turns) ↔
      host.componentStarts = false ∨
        ∀ snapshot, host.frontEnd request.yaml = .ok snapshot → snapshot.taskCount ≤ maxPlans := by
  constructor
  · intro hsafe
    by_contra hcontra
    simp only [not_or, Bool.not_eq_false, not_forall, Nat.not_le] at hcontra
    obtain ⟨hcomponent, snapshot, hfront, hlarge⟩ := hcontra
    have haccess := executeYaml_large library hadmitted hcomponent hfront hlarge turns
    exact Nat.lt_irrefl _ (hsafe.1 maxPlans haccess)
  · intro hsmall
    obtain ⟨hcount, hfilled⟩ := admitYaml_filled hsmall
    simp only [executeYaml, hadmitted, Bool.not_true, Bool.false_eq_true, if_false]
    split
    · exact hfilled.cleanup_safe hcount
    rename_i owner howner
    obtain ⟨_, hentered⟩ := admitYaml_owner howner
    rw [hentered.taskCount_eq] at hcount hfilled ⊢
    have hlooped := runLoop_filled howner library turns .start hfilled
    split_ifs
    · exact hlooped.cleanup_safe hcount
    · exact ⟨fun index hindex => Nat.lt_of_lt_of_le (hlooped.accesses_lt index hindex) hcount,
        by simp [PlanTable.trace]⟩

end Call

/-! ## A small and a large workflow -/

theorem executeYaml_planTableSafe_copying :
    (RuntimeRequest.plain copyingText).admitted = true ∧
      PlanTableSafe (executeYaml inPlace (.reading copyingText copyingTasks) (.plain copyingText)
        copyingTurns) := by
  have hadmitted : (RuntimeRequest.plain copyingText).admitted = true := by decide +kernel
  refine ⟨hadmitted, (executeYaml_planTableSafe_iff inPlace _ _ hadmitted copyingTurns).mpr
    (.inr fun snapshot hfront => ?_)⟩
  rw [WorkflowSnapshot.taskCount_ofTasks (RuntimeHost.frontEnd_reading.mp hfront)]
  decide

/-- The name of the task with this number. -/
def numberedName (index : Nat) : Bytes :=
  ascii "t" ++ [UInt8.ofNat (48 + index / 10), UInt8.ofNat (48 + index % 10)]

/-- As many native tasks as the table has places, and one more. -/
def overflowingTasks : List SnapshotTask :=
  (List.range 65).map fun index =>
    .ofSetVariable (numberedName index) [] (ascii "k") "value" (ascii "v")

/-- The lines of one of them. -/
def overflowingEntry (index : Nat) : Bytes :=
  ascii "  - name: " ++ numberedName index ++ ascii "\n    set_variable: k\n" ++
    ascii "    value: v\n"

/-- The text of these tasks. -/
def overflowingText : Bytes := ascii "tasks:\n" ++ (List.range 65).flatMap overflowingEntry

theorem length_overflowingText : overflowingText.length = 3062 := by
  have hentry (index : Nat) : (overflowingEntry index).length = 47 := by
    have hname : (ascii "  - name: ").length = 10 ∧ (ascii "t").length = 1 ∧
        (ascii "\n    set_variable: k\n").length = 21 ∧ (ascii "    value: v\n").length = 13 := by
      decide
    simp [overflowingEntry, numberedName, hname]
  have hhead : (ascii "tasks:\n").length = 7 := by decide
  simp [overflowingText, List.length_flatMap, hentry, hhead]

theorem exists_read_overflowing :
    ∃ snapshot, WorkflowSnapshot.ofTasks (.object []) overflowingTasks = .ok snapshot :=
  exists_eq_ok (by decide +kernel)

/-- The cleanup after the refusal of 65 tasks reads `plans[64]`. -/
theorem executeYaml_overflowing :
    (RuntimeRequest.plain overflowingText).admitted = true ∧
      ¬ PlanTableSafe (executeYaml inPlace (.reading overflowingText overflowingTasks)
        (.plain overflowingText) []) := by
  have hadmitted : (RuntimeRequest.plain overflowingText).admitted = true := by
    simp [RuntimeRequest.admitted, RuntimeRequest.plain, RuntimeRequest.options,
      length_overflowingText, maxPlans]
  obtain ⟨snapshot, hsnapshot⟩ := exists_read_overflowing
  have hlarge : maxPlans < snapshot.taskCount := by
    rw [WorkflowSnapshot.taskCount_ofTasks hsnapshot]
    simp [overflowingTasks, maxPlans]
  refine ⟨hadmitted, fun hsafe => ?_⟩
  have haccess := executeYaml_large inPlace hadmitted rfl
    (RuntimeHost.frontEnd_reading.mpr hsnapshot) hlarge []
  exact Nat.lt_irrefl _ (hsafe.1 maxPlans haccess)

end Praktor.Runtime
