/-
# What an accepted dependency graph guarantees

`create` accepts a graph only after its last phase has visited every task.  Two
facts about the earlier phases carry the argument.  The name index only holds
indices of tasks, so every edge has both ends in the task table.  And the linked
outgoing list of a task runs through exactly the edges that leave it, from the
newest to the oldest, so walking it is a sweep over the task's dependents.

With these, the visit loop keeps a `Frontier`, and a visit of every task leaves
a topological order of the edges as `edgeAt` enumerates them.
-/

import Praktor.Math.Multigraph
import Praktor.Math.Run
import Praktor.Workflow.Dependencies

namespace Praktor.Workflow

open Praktor.Data Praktor.Math Praktor.Math.Multigraph

namespace Dependencies

/-! ## Outgoing lists -/

/-- The newest edge below `bound` that leaves `source`. -/
def newestBefore (edges : List DependencyEdge) (source : Nat) : Nat → Option Nat
  | 0 => none
  | bound + 1 =>
      if edges[bound]?.map DependencyEdge.predecessor = some source then some bound
      else newestBefore edges source bound

/-- Appending edges does not change what stands below a bound. -/
theorem newestBefore_append {edges : List DependencyEdge} (source : Nat)
    (more : List DependencyEdge) :
    ∀ bound ≤ edges.length,
      newestBefore (edges ++ more) source bound = newestBefore edges source bound := by
  intro bound
  induction bound with
  | zero => intro _; rfl
  | succ bound ih =>
      intro hbound
      simp only [newestBefore, List.getElem?_append_left hbound, ih (by omega)]

/-- The structure that phases one and three maintain. -/
structure Linked (graph : Dependencies) : Prop where
  slots : ∀ task, some task ∈ graph.nameSlots → task < graph.taskCount
  endpoints : ∀ edge ∈ graph.edges,
    edge.predecessor < graph.taskCount ∧ edge.dependent < graph.taskCount
  edges_le : graph.edges.length ≤ maxEdges
  first : ∀ source, graph.tasks[source]?.bind DependencyName.firstOutgoing =
    newestBefore graph.edges source graph.edges.length
  next : ∀ index edge, graph.edges[index]? = some edge →
    edge.nextOutgoing = newestBefore graph.edges edge.predecessor index

theorem Linked.mem_pairs {graph : Dependencies} (hlinked : graph.Linked) :
    ∀ pair ∈ graph.pairs, pair.1 < graph.taskCount ∧ pair.2 < graph.taskCount := by
  intro pair hpair
  obtain ⟨edge, hedge, rfl⟩ := List.mem_map.mp hpair
  exact hlinked.endpoints edge hedge

/-- The empty projection is linked. -/
theorem linked_blank (count : Nat) : (blank count).Linked where
  slots task hmem := by simp [blank, List.mem_replicate] at hmem
  endpoints edge hedge := by simp [blank] at hedge
  edges_le := by simp [blank]
  first source := by
    simp only [blank, List.length_nil, newestBefore]
    cases hsource : (List.replicate count (⟨[], none⟩ : DependencyName))[source]? with
    | none => rfl
    | some task =>
        obtain rfl := List.eq_of_mem_replicate (List.mem_of_getElem? hsource)
        rfl
  next index edge hedge := by simp [blank] at hedge

/-! ## Phase one -/

/-- The graph after the name of task `index` went into `slot`. -/
def withName (graph : Dependencies) (index slot : Nat) (name : Bytes) : Dependencies :=
  { graph with
    tasks := graph.tasks.modify index fun task => { task with bytes := name }
    nameSlots := graph.nameSlots.set slot (some index) }

/-- A successful copy of one name went into a free slot, and the rest succeeded. -/
theorem copyNames_cons_eq_ok {object : Option Json} {rest : List (Option Json)}
    {index nameBytes : Nat} {graph result : Dependencies}
    (hcopy : copyNames (object :: rest) index nameBytes graph = .ok result) :
    ∃ name slot, nameOf object = some name ∧ name.length ≠ 0 ∧
      findSlot graph name = some slot ∧ graph.nameSlots[slot]?.join = none ∧
      name.length + 1 ≤ maxNameBytes - nameBytes ∧
      copyNames rest (index + 1) (nameBytes + (name.length + 1))
        (withName graph index slot name) = .ok result := by
  simp only [copyNames] at hcopy
  cases hname : nameOf object with
  | none => simp [hname] at hcopy
  | some name =>
      simp only [hname] at hcopy
      by_cases hempty : name.length = 0
      · simp [hempty] at hcopy
      rw [if_neg hempty] at hcopy
      cases hslot : findSlot graph name with
      | none => simp [hslot] at hcopy
      | some slot =>
          simp only [hslot] at hcopy
          by_cases htaken : (graph.nameSlots[slot]?.join).isSome
          · simp [htaken] at hcopy
          rw [if_neg htaken] at hcopy
          by_cases hlimit : name.length + 1 > maxNameBytes - nameBytes
          · simp [hlimit] at hcopy
          rw [if_neg hlimit] at hcopy
          exact ⟨name, slot, rfl, hempty, hslot, by simpa using htaken, by omega, hcopy⟩

/-- Entering the name of an existing task keeps the graph linked. -/
theorem Linked.withName {graph : Dependencies} (hlinked : graph.Linked) {index : Nat}
    (hindex : index < graph.taskCount) (slot : Nat) (name : Bytes) :
    (graph.withName index slot name).Linked := by
  have hcount : (graph.withName index slot name).taskCount = graph.taskCount := by
    simp [taskCount, Dependencies.withName]
  refine ⟨?_, ?_, hlinked.edges_le, ?_, hlinked.next⟩
  · intro task hmem
    rw [hcount]
    rcases List.mem_or_eq_of_mem_set hmem with hold | hnew
    · exact hlinked.slots task hold
    · rw [Option.some.injEq] at hnew
      exact hnew ▸ hindex
  · intro edge hedge
    rw [hcount]
    exact hlinked.endpoints edge hedge
  · intro source
    have hfirst := hlinked.first source
    simp only [Dependencies.withName, List.getElem?_modify]
    rw [← hfirst]
    cases graph.tasks[source]? with
    | none => rfl
    | some task => by_cases heq : index = source <;> simp [heq]

/-- Copying names keeps the graph linked and the task table at its length. -/
theorem copyNames_spec :
    ∀ (metadata : List (Option Json)) (index nameBytes : Nat) (graph result : Dependencies),
      graph.Linked → index + metadata.length = graph.taskCount →
      copyNames metadata index nameBytes graph = .ok result →
      result.Linked ∧ result.taskCount = graph.taskCount := by
  intro metadata
  induction metadata with
  | nil =>
      intro index nameBytes graph result hlinked _ hcopy
      simp only [copyNames, Except.ok.injEq] at hcopy
      subst hcopy
      exact ⟨hlinked, rfl⟩
  | cons object rest ih =>
      intro index nameBytes graph result hlinked hlength hcopy
      simp only [List.length_cons] at hlength
      obtain ⟨name, slot, _, _, _, _, _, hrest⟩ := copyNames_cons_eq_ok hcopy
      have hcount : (graph.withName index slot name).taskCount = graph.taskCount := by
        simp [taskCount, withName]
      obtain ⟨hresult, hresultCount⟩ := ih (index + 1) _ (graph.withName index slot name) result
        (hlinked.withName (by omega) slot name) (by omega) hrest
      exact ⟨hresult, hresultCount.trans hcount⟩

/-! ## Phase three -/

/-- A name lookup only answers with a task of the table. -/
theorem Linked.nameIndex_lt {graph : Dependencies} (hlinked : graph.Linked) {name : Bytes}
    {task : Nat} (hindex : nameIndex graph name = .ok (some task)) : task < graph.taskCount := by
  simp only [nameIndex] at hindex
  split at hindex
  · contradiction
  · rename_i slot _
    simp only [Except.ok.injEq] at hindex
    cases hslot : graph.nameSlots[slot]? with
    | none => simp [hslot] at hindex
    | some entry =>
        simp only [hslot, Option.join_some] at hindex
        subst hindex
        exact hlinked.slots task (List.mem_of_getElem? hslot)

/-- A new edge is the newest one of its source, and of no other task. -/
theorem newestBefore_concat (edges : List DependencyEdge) (edge : DependencyEdge) (source : Nat) :
    newestBefore (edges ++ [edge]) source (edges ++ [edge]).length =
      if edge.predecessor = source then some edges.length
      else newestBefore edges source edges.length := by
  simp only [List.length_append, List.length_singleton, newestBefore,
    List.getElem?_concat_length, Option.map_some, Option.some.injEq,
    newestBefore_append source [edge] _ (Nat.le_refl _)]

/-- Appending an edge between two tasks keeps the graph linked. -/
theorem Linked.appendEdge {graph result : Dependencies} (hlinked : graph.Linked)
    {predecessor dependent : Nat} (hpredecessor : predecessor < graph.taskCount)
    (hdependent : dependent < graph.taskCount)
    (happend : graph.appendEdge predecessor dependent = .ok result) :
    result.Linked ∧ result.taskCount = graph.taskCount := by
  simp only [Dependencies.appendEdge] at happend
  split at happend
  · contradiction
  rename_i hlimit
  simp only [Except.ok.injEq] at happend
  subst happend
  have hcount : (graph.tasks.modify predecessor fun task =>
      { task with firstOutgoing := some graph.edges.length }).length = graph.tasks.length := by simp
  refine ⟨⟨?_, ?_, ?_, ?_, ?_⟩, hcount⟩
  · intro task hmem
    simpa only [taskCount, hcount] using hlinked.slots task hmem
  · intro edge hedge
    simp only [taskCount, hcount]
    rcases List.mem_append.mp hedge with hold | hnew
    · exact hlinked.endpoints edge hold
    · rw [List.mem_singleton] at hnew
      subst hnew
      exact ⟨hpredecessor, hdependent⟩
  · have := hlinked.edges_le
    simp only [List.length_append, List.length_singleton]
    omega
  · intro source
    have hold := hlinked.first source
    rw [newestBefore_concat, List.getElem?_modify]
    by_cases hsource : predecessor = source
    · subst hsource
      have hget : graph.tasks[predecessor]? = some (graph.tasks.get ⟨predecessor, hpredecessor⟩) :=
        List.getElem?_eq_getElem hpredecessor
      simp [hget]
    · cases hget : graph.tasks[source]? with
      | none => simpa [hget, hsource] using hold
      | some task => simpa [hget, hsource] using hold
  · intro index edge hedge
    rcases Nat.lt_trichotomy index graph.edges.length with hlt | heq | hgt
    · rw [List.getElem?_append_left hlt] at hedge
      rw [newestBefore_append _ _ _ (Nat.le_of_lt hlt)]
      exact hlinked.next index edge hedge
    · subst heq
      rw [List.getElem?_concat_length, Option.some.injEq] at hedge
      subst hedge
      rw [newestBefore_append _ _ _ (Nat.le_refl _)]
      exact hlinked.first predecessor
    · rw [List.getElem?_eq_none (by simp; omega)] at hedge
      contradiction

theorem appendDependencies_spec {task : Nat} :
    ∀ (entries : List Json) (graph result : Dependencies),
      graph.Linked → task < graph.taskCount →
      appendDependencies task entries graph = .ok result →
      result.Linked ∧ result.taskCount = graph.taskCount := by
  intro entries
  induction entries with
  | nil =>
      intro graph result hlinked _ happend
      simp only [appendDependencies, Except.ok.injEq] at happend
      subst happend
      exact ⟨hlinked, rfl⟩
  | cons value rest ih =>
      intro graph result hlinked htask happend
      simp only [appendDependencies] at happend
      split at happend
      · contradiction
      obtain ⟨index, hindex, happend⟩ := except_bind_eq_ok.mp happend
      cases index with
      | none => contradiction
      | some predecessor =>
          obtain ⟨middle, hmiddle, happend⟩ := except_bind_eq_ok.mp happend
          obtain ⟨hmiddleLinked, hmiddleCount⟩ :=
            hlinked.appendEdge (hlinked.nameIndex_lt hindex) htask hmiddle
          obtain ⟨hresult, hcount⟩ := ih middle result hmiddleLinked (by omega) happend
          exact ⟨hresult, hcount.trans hmiddleCount⟩

theorem appendAllDependencies_spec :
    ∀ (metadata : List Json) (index : Nat) (graph result : Dependencies),
      graph.Linked → index + metadata.length ≤ graph.taskCount →
      appendAllDependencies metadata index graph = .ok result →
      result.Linked ∧ result.taskCount = graph.taskCount := by
  intro metadata
  induction metadata with
  | nil =>
      intro index graph result hlinked _ happend
      simp only [appendAllDependencies, Except.ok.injEq] at happend
      subst happend
      exact ⟨hlinked, rfl⟩
  | cons object rest ih =>
      intro index graph result hlinked hlength happend
      simp only [List.length_cons] at hlength
      obtain ⟨middle, hmiddle, happend⟩ := except_bind_eq_ok.mp happend
      obtain ⟨hmiddleLinked, hmiddleCount⟩ :=
        appendDependencies_spec _ graph middle hlinked (by omega) hmiddle
      obtain ⟨hresult, hcount⟩ := ih (index + 1) middle result hmiddleLinked (by omega) happend
      exact ⟨hresult, hcount.trans hmiddleCount⟩

/-! ## Phase four -/

/-- The lookup function of a degree table. -/
def degreeOf (table : List Nat) (task : Nat) : Nat := table.getD task 0

theorem degreeOf_set {table : List Nat} {task : Nat} (htask : task < table.length) (degree : Nat) :
    degreeOf (table.set task degree) = Function.update (degreeOf table) task degree := by
  funext node
  by_cases hnode : node = task
  · subst hnode
    simp [degreeOf, htask]
  · simp [degreeOf, Function.update_of_ne hnode, List.getElem?_set_ne (Ne.symm hnode)]

theorem degreeOf_modify {table : List Nat} {task : Nat} (htask : task < table.length)
    (node : Nat) :
    degreeOf (table.modify task (· + 1)) node =
      degreeOf table node + if task = node then 1 else 0 := by
  simp only [degreeOf, List.getD_eq_getElem?_getD, List.getElem?_modify]
  by_cases hnode : task = node
  · subst hnode
    simp [List.getElem?_eq_getElem htask]
  · cases table[node]? <;> simp [hnode]

/-- Counting a list of edges adds each of them at its dependent. -/
theorem degreeOf_foldl {count : Nat} (edges : List DependencyEdge) (table : List Nat)
    (hlength : table.length = count) (hrange : ∀ edge ∈ edges, edge.dependent < count) :
    (edges.foldl (fun table edge => table.modify edge.dependent (· + 1)) table).length = count ∧
      ∀ task, degreeOf
          (edges.foldl (fun table edge => table.modify edge.dependent (· + 1)) table) task =
        degreeOf table task +
          openInto (edges.map fun edge => (edge.predecessor, edge.dependent)) (fun _ => false)
            task := by
  induction edges generalizing table with
  | nil => exact ⟨hlength, fun task => rfl⟩
  | cons edge edges ih =>
      have hedge : edge.dependent < table.length := by
        rw [hlength]
        exact hrange edge (by simp)
      obtain ⟨hresult, hdegrees⟩ := ih (table.modify edge.dependent (· + 1)) (by simpa using hlength)
        fun other hother => hrange other (by simp [hother])
      refine ⟨hresult, fun task => (hdegrees task).trans ?_⟩
      rw [degreeOf_modify hedge]
      simp only [openInto, List.map_cons, List.countP_cons, and_true, decide_eq_true_eq]
      omega

/-- Before any visit a degree counts all the edges into a task. -/
theorem degreeOf_degrees {graph : Dependencies} (hlinked : graph.Linked) :
    graph.degrees.length = graph.taskCount ∧
      ∀ task, degreeOf graph.degrees task = openInto graph.pairs (fun _ => false) task := by
  obtain ⟨hlength, hdegrees⟩ := degreeOf_foldl graph.edges (List.replicate graph.taskCount 0)
    (by simp) fun edge hedge => (hlinked.endpoints edge hedge).2
  refine ⟨hlength, fun task => (hdegrees task).trans ?_⟩
  have hzero : degreeOf (List.replicate graph.taskCount 0) task = 0 := by
    simp only [degreeOf, List.getD_eq_getElem?_getD, List.getElem?_replicate]
    split <;> rfl
  rw [hzero, Nat.zero_add]
  rfl

/-- The edges below a bound, seen from one source and newest first. -/
def outgoingBefore (graph : Dependencies) (source bound : Nat) : List Nat :=
  (dependentsOf (graph.pairs.take bound) source).reverse

theorem outgoingBefore_succ {graph : Dependencies} {bound : Nat} {edge : DependencyEdge}
    (hedge : graph.edges[bound]? = some edge) (source : Nat) :
    graph.outgoingBefore source (bound + 1) =
      if edge.predecessor = source then edge.dependent :: graph.outgoingBefore source bound
      else graph.outgoingBefore source bound := by
  have htake : graph.pairs.take (bound + 1) =
      graph.pairs.take bound ++ [(edge.predecessor, edge.dependent)] := by
    rw [List.take_add_one]
    simp [pairs, hedge]
  simp only [outgoingBefore, htake, dependentsOf, List.filter_append, List.map_append,
    List.reverse_append]
  by_cases hsource : edge.predecessor = source <;> simp [hsource]

/-- Walking an outgoing list is a sweep over the dependents it links, and the
walk ends within its bound. -/
theorem walkOutgoing_eq_sweep {graph : Dependencies} (hlinked : graph.Linked) (source : Nat) :
    ∀ (bound fuel : Nat) (table queue : List Nat), bound ≤ graph.edges.length → bound ≤ fuel →
      table.length = graph.taskCount →
      (∀ task, (graph.outgoingBefore source bound).count task ≤ degreeOf table task) →
      ∃ table' queue', walkOutgoing graph fuel (newestBefore graph.edges source bound)
          (table, queue) = some (table', queue') ∧ table'.length = graph.taskCount ∧
        sweep (graph.outgoingBefore source bound) (degreeOf table, queue) =
          (degreeOf table', queue') := by
  intro bound
  induction bound with
  | zero =>
      intro fuel table queue _ _ hlength _
      refine ⟨table, queue, ?_, hlength, ?_⟩
      · cases fuel <;> rfl
      · simp [outgoingBefore, dependentsOf, sweep]
  | succ bound ih =>
      intro fuel table queue hbound hfuel hlength hcount
      have hedge : graph.edges[bound]? = some (graph.edges.get ⟨bound, hbound⟩) :=
        List.getElem?_eq_getElem hbound
      generalize graph.edges.get ⟨bound, hbound⟩ = edge at hedge
      rw [outgoingBefore_succ hedge] at hcount ⊢
      by_cases hsource : edge.predecessor = source
      · have hnewest : newestBefore graph.edges source (bound + 1) = some bound := by
          simp [newestBefore, hedge, hsource]
        rw [if_pos hsource] at hcount ⊢
        obtain ⟨fuel, rfl⟩ : ∃ less, fuel = less + 1 := ⟨fuel - 1, by omega⟩
        have hdependent : edge.dependent < table.length := by
          rw [hlength]
          exact (hlinked.endpoints edge (List.mem_of_getElem? hedge)).2
        have hpositive : (graph.outgoingBefore source bound).count edge.dependent + 1 ≤
            degreeOf table edge.dependent := by
          simpa using hcount edge.dependent
        have hdecrement : decrement (table.getD edge.dependent 0) =
            degreeOf table edge.dependent - 1 := by
          have hne : ¬ table.getD edge.dependent 0 = 0 := by
            simp only [degreeOf] at hpositive
            omega
          rw [decrement, if_neg hne, degreeOf]
        have hset := degreeOf_set hdependent (degreeOf table edge.dependent - 1)
        have hrest : ∀ task, (graph.outgoingBefore source bound).count task ≤
            degreeOf (table.set edge.dependent (degreeOf table edge.dependent - 1)) task := by
          intro task
          rw [hset]
          by_cases htask : task = edge.dependent
          · subst htask
            rw [Function.update_self]
            omega
          · rw [Function.update_of_ne htask]
            simpa [Ne.symm htask] using hcount task
        obtain ⟨table', queue', hwalk, hlength', hsweep⟩ := ih fuel _
          (if degreeOf table edge.dependent - 1 = 0 then queue ++ [edge.dependent] else queue)
          (by omega) (by omega) (by simpa using hlength) hrest
        refine ⟨table', queue', ?_, hlength', ?_⟩
        · rw [hnewest]
          simp only [walkOutgoing, hedge, hdecrement, hlinked.next bound edge hedge, hsource]
          exact hwalk
        · rw [sweep, ← hset]
          exact hsweep
      · have hnewest : newestBefore graph.edges source (bound + 1) =
            newestBefore graph.edges source bound := by
          simp [newestBefore, hedge, hsource]
        rw [if_neg hsource] at hcount ⊢
        rw [hnewest]
        exact ih fuel table queue (by omega) (by omega) hlength hcount

/-- The visit loop keeps the frontier, and it ends with the queue empty. -/
theorem visitQueue_spec {graph : Dependencies} (hlinked : graph.Linked) :
    ∀ (fuel : Nat) (table visited queue : List Nat),
      table.length = graph.taskCount → visited.length + fuel = graph.taskCount →
      Frontier (· < graph.taskCount) graph.pairs (degreeOf table) visited queue →
      ∃ table' visited', visitQueue graph fuel table queue visited.length =
          some visited'.length ∧
        Frontier (· < graph.taskCount) graph.pairs (degreeOf table') visited' [] := by
  intro fuel
  induction fuel with
  | zero =>
      intro table visited queue _ hvisited hfrontier
      cases queue with
      | nil => exact ⟨table, visited, rfl, hfrontier⟩
      | cons task queue =>
          -- a further queued task would be one task too many
          have hsubset : visited ++ task :: queue ⊆ List.range graph.taskCount := fun node hnode =>
            List.mem_range.mpr (hfrontier.isNode node hnode)
          have hle := (List.subperm_of_subset hfrontier.nodup hsubset).length_le
          simp only [List.length_append, List.length_cons, List.length_range] at hle
          omega
  | succ fuel ih =>
      intro table visited queue hlength hvisited hfrontier
      cases queue with
      | nil => exact ⟨table, visited, rfl, hfrontier⟩
      | cons task queue =>
          have houtgoing : ∀ node, (graph.outgoingBefore task graph.edges.length).count node =
              graph.pairs.count (task, node) := by
            intro node
            have hall : graph.pairs.take graph.edges.length = graph.pairs :=
              List.take_of_length_le (by simp [pairs])
            rw [outgoingBefore, List.count_reverse, count_dependentsOf, hall]
          obtain ⟨degrees', queue', hsweep, hfrontier'⟩ := hfrontier.visit
            (fun edge hedge => (hlinked.mem_pairs edge hedge).2) houtgoing
          have hle : ∀ node, (graph.outgoingBefore task graph.edges.length).count node ≤
              degreeOf table node := by
            intro node
            rw [houtgoing, hfrontier.degrees_visit node]
            exact Nat.le_add_left _ _
          obtain ⟨table', queue'', hwalk, hlength', hsweep'⟩ := walkOutgoing_eq_sweep hlinked task
            graph.edges.length graph.edges.length table queue (Nat.le_refl _) (Nat.le_refl _)
            hlength hle
          obtain ⟨rfl, rfl⟩ : degrees' = degreeOf table' ∧ queue' = queue'' := by
            rw [hsweep, Prod.mk.injEq] at hsweep'
            exact hsweep'
          obtain ⟨table'', visited'', hvisit, hlast⟩ := ih table' (visited ++ [task]) queue' hlength'
            (by simp only [List.length_append, List.length_singleton]; omega) hfrontier'
          refine ⟨table'', visited'', ?_, hlast⟩
          rw [visitQueue, hlinked.first task, hwalk]
          simpa using hvisit

/-- Before the first visit the queue holds the tasks without incoming edges. -/
theorem frontier_start {graph : Dependencies} (hlinked : graph.Linked) :
    Frontier (· < graph.taskCount) graph.pairs (degreeOf graph.degrees) [] graph.sources := by
  obtain ⟨_, hdegrees⟩ := degreeOf_degrees hlinked
  refine ⟨?_, ?_, ?_, ?_, ordered_nil _⟩
  · intro task
    simpa using hdegrees task
  · simpa [sources] using List.nodup_range.filter _
  · intro task htask
    simp only [List.nil_append, sources, List.mem_filter, List.mem_range] at htask
    exact htask.1
  · intro task htask
    simp [sources, htask, degreeOf]

/-- `check_cycles` always returns, and accepts only a graph whose tasks can be
listed so that every edge points forward. -/
theorem checkCycles_order {graph : Dependencies} (hlinked : graph.Linked)
    (hcheck : checkCycles graph = .ok ()) :
    ∃ order, Ordered graph.pairs order ∧ ∀ task, task ∈ order ↔ task < graph.taskCount := by
  obtain ⟨table, visited, hvisit, hfrontier⟩ := visitQueue_spec hlinked graph.taskCount
    graph.degrees [] graph.sources (degreeOf_degrees hlinked).1 (by simp) (frontier_start hlinked)
  simp only [List.length_nil] at hvisit
  simp only [checkCycles, hvisit] at hcheck
  split at hcheck
  · rename_i hlength
    exact ⟨visited, hfrontier.ordered, fun task =>
      ⟨fun hmem => hfrontier.isNode task (by simpa using hmem),
        hfrontier.mem_visited_of_length hlength⟩⟩
  · contradiction

/-! ## Acceptance -/

/-- What the rest of the program may assume of a graph that `create` returned. -/
structure Accepted (graph : Dependencies) : Prop where
  linked : graph.Linked
  count_pos : 0 < graph.taskCount
  count_le : graph.taskCount ≤ maxTasks
  order : ∃ order, Ordered graph.pairs order ∧ ∀ task, task ∈ order ↔ task < graph.taskCount

/-- Every graph `praktor_workflow_dependencies_create` returns is accepted and has
one task for each metadata object. -/
theorem create_spec {metadata : List (Option Json)} {graph : Dependencies}
    (hcreate : create metadata = .ok graph) :
    graph.Accepted ∧ graph.taskCount = metadata.length := by
  simp only [create] at hcreate
  by_cases hcount : (decide (metadata.length = 0) || decide (metadata.length > maxTasks)) = true
  · rw [if_pos hcount] at hcreate
    contradiction
  rw [if_neg hcount] at hcreate
  simp only [Bool.or_eq_true, decide_eq_true_eq, not_or] at hcount
  obtain ⟨named, hnamed, hcreate⟩ := except_bind_eq_ok.mp hcreate
  obtain ⟨_, _, hcreate⟩ := except_bind_eq_ok.mp hcreate
  obtain ⟨result, hresult, hcreate⟩ := except_bind_eq_ok.mp hcreate
  obtain ⟨_, hcheck, hcreate⟩ := except_bind_eq_ok.mp hcreate
  rw [Except.ok.injEq] at hcreate
  subst hcreate
  have hblank : (blank metadata.length).taskCount = metadata.length := by simp [taskCount, blank]
  obtain ⟨hnamedLinked, hnamedCount⟩ := copyNames_spec metadata 0 0 (blank metadata.length) named
    (linked_blank _) (by omega) hnamed
  have hfilter : (metadata.filterMap id).length ≤ metadata.length := List.length_filterMap_le _ _
  obtain ⟨hlinked, hresultCount⟩ := appendAllDependencies_spec (metadata.filterMap id) 0 named result
    hnamedLinked (by omega) hresult
  exact ⟨⟨hlinked, by omega, by omega, checkCycles_order hlinked hcheck⟩, by omega⟩

theorem accepted_of_create {metadata : List (Option Json)} {graph : Dependencies}
    (hcreate : create metadata = .ok graph) : graph.Accepted :=
  (create_spec hcreate).1

end Dependencies

end Praktor.Workflow
