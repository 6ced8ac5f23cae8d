/-
# Outgoing edge lists

The edges that leave a task are linked by index through the growing edge table, newest first.
While edges are appended, in any order and with any repeats, the list of a task visits exactly the
edges that leave it, each of them once.  What the visit loop of `check_cycles` does follows: the
loop is run here with a log of the edges it lowers and with its whole queue, so that one can say
that no edge is lowered twice, no degree below zero, and no task entered twice.
-/

import Praktor.Workflow.DependencyOrder

namespace Praktor.Workflow

open Praktor.Data Praktor.Math Praktor.Math.Multigraph

namespace Dependencies

/-! ## Chains -/

/-- The edges that a walk along `next_outgoing` meets up to its end. -/
inductive Chain (graph : Dependencies) : Option Nat → List Nat → Prop
  | done : Chain graph none []
  | link {index : Nat} {edge : DependencyEdge} {rest : List Nat}
      (hedge : graph.edges[index]? = some edge) (hrest : Chain graph edge.nextOutgoing rest) :
      Chain graph (some index) (index :: rest)

/-- The edges below a bound that leave a task, newest first. -/
def leavingBefore (graph : Dependencies) (task bound : Nat) : List Nat :=
  ((List.range bound).filter fun index =>
    graph.edges[index]?.map DependencyEdge.predecessor = some task).reverse

/-- The edges that leave a task, newest first. -/
def leaving (graph : Dependencies) (task : Nat) : List Nat :=
  graph.leavingBefore task graph.edges.length

/-- The dependent of an edge. -/
def dependentAt (graph : Dependencies) (index : Nat) : Option Nat :=
  graph.edges[index]?.map DependencyEdge.dependent

/-- `first_outgoing` of a task. -/
def firstOf (graph : Dependencies) (task : Nat) : Option Nat :=
  graph.tasks[task]?.bind DependencyName.firstOutgoing

section Chains

variable {graph : Dependencies}

theorem leavingBefore_succ {bound : Nat} {edge : DependencyEdge}
    (hedge : graph.edges[bound]? = some edge) (task : Nat) :
    graph.leavingBefore task (bound + 1) =
      if edge.predecessor = task then bound :: graph.leavingBefore task bound
      else graph.leavingBefore task bound := by
  rw [leavingBefore, List.range_succ, List.filter_append, List.reverse_append, leavingBefore]
  by_cases hleaves : edge.predecessor = task <;> simp [hedge, hleaves]

theorem mem_leaving {task index : Nat} :
    index ∈ graph.leaving task ↔ ∃ dependent, graph.edgeAt index = some (task, dependent) := by
  rw [leaving, leavingBefore, List.mem_reverse, List.mem_filter, List.mem_range, edgeAt]
  cases hedge : graph.edges[index]? with
  | none => simp
  | some edge =>
      obtain ⟨hlt, _⟩ := List.getElem?_eq_some_iff.mp hedge
      simp [hlt]

theorem nodup_leaving (task : Nat) : (graph.leaving task).Nodup :=
  List.nodup_reverse.mpr (List.nodup_range.filter _)

theorem length_leaving_le (task : Nat) : (graph.leaving task).length ≤ graph.edges.length := by
  rw [leaving, leavingBefore, List.length_reverse]
  exact Nat.le_trans (List.length_filter_le ..) (Nat.le_of_eq List.length_range)

/-- Below every bound the list from the newest edge on is the edges that leave the task. -/
theorem Linked.chainBefore (hlinked : graph.Linked) (task : Nat) :
    ∀ bound ≤ graph.edges.length,
      Chain graph (newestBefore graph.edges task bound) (graph.leavingBefore task bound) := by
  intro bound
  induction bound with
  | zero => intro _; exact .done
  | succ bound ih =>
      intro hbound
      have hedge : graph.edges[bound]? = some (graph.edges.get ⟨bound, hbound⟩) :=
        List.getElem?_eq_getElem hbound
      generalize graph.edges.get ⟨bound, hbound⟩ = edge at hedge
      have hrest := ih (by omega)
      rw [leavingBefore_succ hedge, newestBefore, hedge, Option.map_some]
      by_cases hleaves : edge.predecessor = task
      · rw [if_pos (congrArg some hleaves), if_pos hleaves]
        apply Chain.link hedge
        rw [hlinked.next bound edge hedge, hleaves]
        exact hrest
      · rw [if_neg (by simpa using hleaves), if_neg hleaves]
        exact hrest

theorem Linked.chain (hlinked : graph.Linked) (task : Nat) :
    Chain graph (graph.firstOf task) (graph.leaving task) := by
  rw [firstOf, hlinked.first]
  exact hlinked.chainBefore task _ (Nat.le_refl _)

/-- The dependents along the list are those of the edges that leave the task. -/
theorem filterMap_leavingBefore (task : Nat) :
    ∀ bound ≤ graph.edges.length,
      (graph.leavingBefore task bound).filterMap graph.dependentAt =
        graph.outgoingBefore task bound := by
  intro bound
  induction bound with
  | zero => intro _; rfl
  | succ bound ih =>
      intro hbound
      have hedge : graph.edges[bound]? = some (graph.edges.get ⟨bound, hbound⟩) :=
        List.getElem?_eq_getElem hbound
      generalize graph.edges.get ⟨bound, hbound⟩ = edge at hedge
      rw [leavingBefore_succ hedge, outgoingBefore_succ hedge]
      have hdependent : graph.dependentAt bound = some edge.dependent := by
        rw [dependentAt, hedge, Option.map_some]
      split
      · rw [List.filterMap_cons_some hdependent, ih (by omega)]
      · exact ih (by omega)

theorem count_leaving (task dependent : Nat) :
    ((graph.leaving task).filterMap graph.dependentAt).count dependent =
      graph.pairs.count (task, dependent) := by
  have hall : graph.pairs.take graph.edges.length = graph.pairs :=
    List.take_of_length_le (by simp [pairs])
  rw [leaving, filterMap_leavingBefore task _ (Nat.le_refl _), outgoingBefore, List.count_reverse,
    count_dependentsOf, hall]

end Chains

/-! ## Searching an edge -/

/-- The loop of `has_edge` from an edge on. -/
def hasEdgeFrom (graph : Dependencies) (dependent : Nat) : Nat → Option Nat → Option Bool
  | _, none => some false
  | 0, some _ => none
  | fuel + 1, some index =>
      match graph.edges[index]? with
      | none => none
      | some edge =>
          if edge.dependent = dependent then some true
          else hasEdgeFrom graph dependent fuel edge.nextOutgoing

/-- `praktor_workflow_dependencies_has_edge`, with a bound on the steps of its loop. -/
def praktorWorkflowDependenciesHasEdge (graph : Dependencies) (predecessor dependent : Nat) :
    Option (Except Salts Bool) :=
  if predecessor ≥ graph.taskCount ∨ dependent ≥ graph.taskCount then some (.error .enoent)
  else (hasEdgeFrom graph dependent graph.edges.length (graph.firstOf predecessor)).map .ok

theorem hasEdgeFrom_chain {graph : Dependencies} {start : Option Nat} {chain : List Nat}
    (hchain : Chain graph start chain) (dependent : Nat) {fuel : Nat} (hfuel : chain.length ≤ fuel) :
    hasEdgeFrom graph dependent fuel start =
      some (chain.any fun index => graph.dependentAt index = some dependent) := by
  induction hchain generalizing fuel with
  | done => cases fuel <;> rfl
  | @link index edge rest hedge hrest ih =>
      obtain ⟨fuel, rfl⟩ : ∃ less, fuel = less + 1 :=
        ⟨fuel - 1, by rw [List.length_cons] at hfuel; omega⟩
      have hdependent : graph.dependentAt index = some edge.dependent := by
        rw [dependentAt, hedge, Option.map_some]
      rw [hasEdgeFrom, hedge, List.any_cons, hdependent]
      by_cases hfound : edge.dependent = dependent
      · simp [hfound]
      · simp only [if_neg hfound, ih (Nat.le_of_succ_le_succ hfuel)]
        simp [hfound]

/-- The search ends, and finds the edges that `edge_at` enumerates. -/
theorem Linked.hasEdge {graph : Dependencies} (hlinked : graph.Linked)
    (predecessor dependent : Nat) :
    ∃ result, praktorWorkflowDependenciesHasEdge graph predecessor dependent = some result ∧
      (predecessor < graph.taskCount → dependent < graph.taskCount → ∃ found, result = .ok found) ∧
      (result = .ok true ↔ ∃ index, graph.edgeAt index = some (predecessor, dependent)) := by
  rw [praktorWorkflowDependenciesHasEdge]
  split
  next hrange =>
    refine ⟨.error .enoent, rfl, fun hfirst hsecond => absurd hrange (by omega), nofun, ?_⟩
    rintro ⟨index, hedge⟩
    obtain ⟨edge, hget, hpair⟩ := Option.map_eq_some_iff.mp hedge
    have hends := hlinked.endpoints edge (List.mem_of_getElem? hget)
    rw [Prod.mk.injEq] at hpair
    omega
  next hrange =>
    rw [hasEdgeFrom_chain (hlinked.chain predecessor) dependent (length_leaving_le _)]
    refine ⟨_, rfl, fun _ _ => ⟨_, rfl⟩, ?_⟩
    rw [Except.ok.injEq, List.any_eq_true]
    constructor
    · rintro ⟨index, hmem, hdependent⟩
      obtain ⟨other, hedge⟩ := mem_leaving.mp hmem
      refine ⟨index, ?_⟩
      obtain ⟨edge, hget, hpair⟩ := Option.map_eq_some_iff.mp hedge
      rw [decide_eq_true_eq, dependentAt, hget, Option.map_some, Option.some.injEq] at hdependent
      rw [edgeAt, hget, Option.map_some, hdependent, (Prod.mk.inj hpair).1]
    · rintro ⟨index, hedge⟩
      refine ⟨index, mem_leaving.mpr ⟨dependent, hedge⟩, ?_⟩
      obtain ⟨edge, hget, hpair⟩ := Option.map_eq_some_iff.mp hedge
      rw [decide_eq_true_eq, dependentAt, hget, Option.map_some, (Prod.mk.inj hpair).2]

/-! ## The visit loop with its log -/

/-- The locals of `check_cycles`: the queue with everything ever entered, the place it is read at,
and a log of the edges whose dependents were lowered, each with the degree before. -/
structure CycleState where
  degrees : List Nat
  queue : List Nat
  front : Nat
  lowered : List (Nat × Nat)

/-- Lower the dependent of an edge, and enter it when its degree is zero. -/
def CycleState.lower (state : CycleState) (index : Nat) (edge : DependencyEdge) : CycleState :=
  let degree := state.degrees.getD edge.dependent 0
  { state with
    degrees := state.degrees.set edge.dependent (decrement degree)
    queue := if decrement degree = 0 then state.queue ++ [edge.dependent] else state.queue
    lowered := state.lowered ++ [(index, degree)] }

/-- The inner loop of `check_cycles`. -/
def walkLogged (graph : Dependencies) : Nat → Option Nat → CycleState → Option CycleState
  | _, none, state => some state
  | 0, some _, _ => none
  | fuel + 1, some index, state =>
      match graph.edges[index]? with
      | none => none
      | some edge => walkLogged graph fuel edge.nextOutgoing (state.lower index edge)

/-- The outer loop of `check_cycles`. -/
def visitLogged (graph : Dependencies) : Nat → CycleState → Option CycleState
  | 0, state => if state.queue[state.front]?.isNone then some state else none
  | fuel + 1, state =>
      match state.queue[state.front]? with
      | none => some state
      | some task =>
          (walkLogged graph graph.edges.length (graph.firstOf task)
            { state with front := state.front + 1 }).bind (visitLogged graph fuel)

/-- The whole loop. -/
def visitAllLogged (graph : Dependencies) : Option CycleState :=
  visitLogged graph graph.taskCount ⟨graph.degrees, graph.sources, 0, []⟩

section Forgetting

variable (graph : Dependencies)

/-- Without its log the inner loop is the one of `check_cycles`, on the part of the queue that is
not read. -/
theorem walkLogged_forget (fuel : Nat) (start : Option Nat) (state : CycleState) (read : Nat)
    (hread : read ≤ state.queue.length) :
    walkOutgoing graph fuel start (state.degrees, state.queue.drop read) =
      (walkLogged graph fuel start state).map fun next => (next.degrees, next.queue.drop read) := by
  induction fuel generalizing start state with
  | zero => cases start <;> rfl
  | succ fuel ih =>
      cases start with
      | none => rfl
      | some index =>
          rw [walkOutgoing, walkLogged]
          cases hedge : graph.edges[index]? with
          | none => rfl
          | some edge =>
              have hlonger : read ≤ (state.lower index edge).queue.length := by
                rw [CycleState.lower]
                dsimp only
                split
                · rw [List.length_append]
                  omega
                · exact hread
              simp only
              rw [← ih edge.nextOutgoing _ hlonger]
              congr 2
              rw [CycleState.lower]
              dsimp only
              split
              · rw [List.drop_append_of_le_length hread]
              · rfl

/-- The inner loop only enters tasks, and it reads none. -/
theorem walkLogged_grows (fuel : Nat) (start : Option Nat) (state : CycleState)
    {next : CycleState} (hwalk : walkLogged graph fuel start state = some next) :
    next.front = state.front ∧ state.queue <+: next.queue := by
  induction fuel generalizing start state with
  | zero =>
      cases start with
      | none =>
          rw [walkLogged, Option.some.injEq] at hwalk
          rw [hwalk]
          exact ⟨rfl, List.prefix_refl _⟩
      | some index => cases hwalk
  | succ fuel ih =>
      cases start with
      | none =>
          rw [walkLogged, Option.some.injEq] at hwalk
          rw [hwalk]
          exact ⟨rfl, List.prefix_refl _⟩
      | some index =>
          rw [walkLogged] at hwalk
          cases hedge : graph.edges[index]? with
          | none => simp [hedge] at hwalk
          | some edge =>
              rw [hedge] at hwalk
              obtain ⟨hfront, hqueue⟩ := ih _ _ hwalk
              refine ⟨hfront, List.IsPrefix.trans ?_ hqueue⟩
              rw [CycleState.lower]
              dsimp only
              split
              · exact List.prefix_append ..
              · exact List.prefix_refl _

/-- Without its log the outer loop is the one of `check_cycles`. -/
theorem visitLogged_forget (fuel : Nat) (state : CycleState)
    (hfront : state.front ≤ state.queue.length) :
    visitQueue graph fuel state.degrees (state.queue.drop state.front) state.front =
      (visitLogged graph fuel state).map CycleState.front := by
  induction fuel generalizing state with
  | zero =>
      rw [visitLogged]
      cases hhead : state.queue[state.front]? with
      | none =>
          rw [List.drop_of_length_le (List.getElem?_eq_none_iff.mp hhead)]
          rfl
      | some task =>
          rw [List.drop_eq_getElem?_toList_append, hhead]
          rfl
  | succ fuel ih =>
      rw [visitLogged]
      cases hhead : state.queue[state.front]? with
      | none =>
          rw [List.drop_of_length_le (List.getElem?_eq_none_iff.mp hhead)]
          rfl
      | some task =>
          obtain ⟨hlt, hget⟩ := List.getElem?_eq_some_iff.mp hhead
          have hforget := walkLogged_forget graph graph.edges.length (graph.firstOf task)
            { state with front := state.front + 1 } (state.front + 1) hlt
          rw [List.drop_eq_getElem_cons hlt, hget, visitQueue]
          simp only [firstOf] at hforget ⊢
          rw [hforget]
          cases hwalk : walkLogged graph graph.edges.length
              (graph.tasks[task]?.bind DependencyName.firstOutgoing)
              { state with front := state.front + 1 } with
          | none => rfl
          | some next =>
              obtain ⟨hsame, hqueue⟩ := walkLogged_grows _ _ _ _ hwalk
              rw [Option.map_some, Option.bind_some]
              simp only at hsame
              simp only
              rw [← hsame]
              apply ih
              rw [hsame]
              exact Nat.le_trans hlt hqueue.length_le

end Forgetting

/-! ## What the loop lowers -/

section Lowering

variable {graph : Dependencies}

/-- Along a chain the inner loop lowers each of its edges once, and no degree below zero. -/
theorem walkLogged_lowers {start : Option Nat} {chain : List Nat} (hchain : Chain graph start chain)
    (hlinked : graph.Linked) {fuel : Nat} {state next : CycleState}
    (hwalk : walkLogged graph fuel start state = some next)
    (hlength : state.degrees.length = graph.taskCount)
    (hcount : ∀ task, (chain.filterMap graph.dependentAt).count task ≤
      degreeOf state.degrees task)
    (hpositive : ∀ entry ∈ state.lowered, 0 < entry.2) :
    next.lowered.map Prod.fst = state.lowered.map Prod.fst ++ chain ∧
      ∀ entry ∈ next.lowered, 0 < entry.2 := by
  induction hchain generalizing fuel state with
  | done =>
      have hsame : state = next := by cases fuel <;> simpa [walkLogged] using hwalk
      subst hsame
      exact ⟨by rw [List.append_nil], hpositive⟩
  | @link index edge rest hedge hrest ih =>
      cases fuel with
      | zero => cases hwalk
      | succ fuel =>
          rw [walkLogged, hedge] at hwalk
          have hdependent : graph.dependentAt index = some edge.dependent := by
            rw [dependentAt, hedge, Option.map_some]
          have hrange : edge.dependent < state.degrees.length := by
            rw [hlength]
            exact (hlinked.endpoints edge (List.mem_of_getElem? hedge)).2
          rw [List.filterMap_cons_some hdependent] at hcount
          have hdegree : (rest.filterMap graph.dependentAt).count edge.dependent + 1 ≤
              degreeOf state.degrees edge.dependent := by
            simpa using hcount edge.dependent
          have hlowered : decrement (state.degrees.getD edge.dependent 0) =
              degreeOf state.degrees edge.dependent - 1 := by
            have hne : ¬ state.degrees.getD edge.dependent 0 = 0 := by
              simp only [degreeOf] at hdegree
              omega
            rw [decrement, if_neg hne, degreeOf]
          have hrestCount (task : Nat) : (rest.filterMap graph.dependentAt).count task ≤
              degreeOf (state.lower index edge).degrees task := by
            have hset := degreeOf_set hrange (degreeOf state.degrees edge.dependent - 1)
            have htask := hcount task
            simp only [CycleState.lower, hlowered, hset]
            by_cases hsame : task = edge.dependent
            · rw [hsame, Function.update_self]
              omega
            · rw [Function.update_of_ne hsame]
              rwa [List.count_cons_of_ne (Ne.symm hsame)] at htask
          have hrestPositive : ∀ entry ∈ (state.lower index edge).lowered, 0 < entry.2 := by
            intro entry hentry
            obtain hold | hnew := List.mem_append.mp hentry
            · exact hpositive entry hold
            · rw [List.mem_singleton] at hnew
              rw [hnew]
              simp only [degreeOf] at hdegree
              omega
          obtain ⟨hindices, hall⟩ := ih hwalk (by simpa [CycleState.lower] using hlength)
            hrestCount hrestPositive
          refine ⟨?_, hall⟩
          rw [hindices, CycleState.lower, List.map_append, List.append_assoc]
          rfl

/-- What holds whenever the outer loop begins anew. -/
structure Visited (graph : Dependencies) (state : CycleState) : Prop where
  table : state.degrees.length = graph.taskCount
  front_le : state.front ≤ state.queue.length
  frontier : Frontier (· < graph.taskCount) graph.pairs (degreeOf state.degrees)
    (state.queue.take state.front) (state.queue.drop state.front)
  lowered : state.lowered.map Prod.fst = (state.queue.take state.front).flatMap graph.leaving
  positive : ∀ entry ∈ state.lowered, 0 < entry.2

theorem Visited.nodup {state : CycleState} (hvisited : Visited graph state) :
    state.queue.Nodup := by
  have hnodup := hvisited.frontier.nodup
  rwa [List.take_append_drop] at hnodup

theorem Visited.queue_le {state : CycleState} (hvisited : Visited graph state) :
    state.queue.length ≤ graph.taskCount := by
  have hsubset : state.queue ⊆ List.range graph.taskCount := by
    intro task htask
    apply List.mem_range.mpr
    apply hvisited.frontier.isNode
    rw [List.take_append_drop]
    exact htask
  have hle := (List.subperm_of_subset hvisited.nodup hsubset).length_le
  rwa [List.length_range] at hle

/-- An edge leaves one task only. -/
theorem leaving_disjoint {first second index : Nat} (hfirst : index ∈ graph.leaving first)
    (hsecond : index ∈ graph.leaving second) : first = second := by
  obtain ⟨_, hone⟩ := mem_leaving.mp hfirst
  obtain ⟨_, htwo⟩ := mem_leaving.mp hsecond
  rw [hone, Option.some.injEq, Prod.mk.injEq] at htwo
  exact htwo.1

theorem Visited.lowered_nodup {state : CycleState} (hvisited : Visited graph state) :
    (state.lowered.map Prod.fst).Nodup := by
  rw [hvisited.lowered, List.nodup_flatMap]
  refine ⟨fun task _ => nodup_leaving task, ?_⟩
  have hread := (List.take_sublist state.front state.queue).nodup hvisited.nodup
  apply hread.imp
  intro first second hne index hfirst hsecond
  exact hne (leaving_disjoint hfirst hsecond)

/-- One visit keeps what holds, and reads one more task. -/
theorem Visited.visit (hlinked : graph.Linked) {state : CycleState}
    (hvisited : Visited graph state) {task : Nat}
    (hhead : state.queue[state.front]? = some task) :
    ∃ next, walkLogged graph graph.edges.length (graph.firstOf task)
        { state with front := state.front + 1 } = some next ∧
      next.front = state.front + 1 ∧ Visited graph next := by
  obtain ⟨hlt, hget⟩ := List.getElem?_eq_some_iff.mp hhead
  have hfrontier := hvisited.frontier
  rw [List.drop_eq_getElem_cons hlt, hget] at hfrontier
  have hcount (node : Nat) : (graph.outgoingBefore task graph.edges.length).count node =
      graph.pairs.count (task, node) := by
    rw [← filterMap_leavingBefore task _ (Nat.le_refl _)]
    exact count_leaving task node
  have hle (node : Nat) : (graph.outgoingBefore task graph.edges.length).count node ≤
      degreeOf state.degrees node := by
    rw [hcount, hfrontier.degrees_visit node]
    exact Nat.le_add_left _ _
  obtain ⟨degrees, queue, hsweep, hnext⟩ := hfrontier.visit
    (fun edge hedge => (hlinked.mem_pairs edge hedge).2) hcount
  obtain ⟨table, rest, hwalk, hlength, hswept⟩ := walkOutgoing_eq_sweep hlinked task
    graph.edges.length graph.edges.length state.degrees (state.queue.drop (state.front + 1))
    (Nat.le_refl _) (Nat.le_refl _) hvisited.table hle
  rw [hsweep, Prod.mk.injEq] at hswept
  obtain ⟨rfl, rfl⟩ := hswept
  rw [← hlinked.first task] at hwalk
  have hforget := walkLogged_forget graph graph.edges.length (graph.firstOf task)
    { state with front := state.front + 1 } (state.front + 1) hlt
  simp only [firstOf] at hforget
  rw [hwalk] at hforget
  obtain ⟨next, hlogged, hresult⟩ := Option.map_eq_some_iff.mp hforget.symm
  rw [Prod.mk.injEq] at hresult
  obtain ⟨rfl, rfl⟩ := hresult
  obtain ⟨hfront, hqueue⟩ := walkLogged_grows _ _ _ _ hlogged
  simp only at hfront hqueue
  obtain ⟨hlowered, hpositive⟩ := walkLogged_lowers (hlinked.chain task) hlinked hlogged
    hvisited.table (fun node => by rw [count_leaving, ← hcount]; exact hle node) hvisited.positive
  obtain ⟨entered, hentered⟩ := hqueue
  have htake : next.queue.take (state.front + 1) = state.queue.take state.front ++ [task] := by
    rw [← hentered, List.take_append_of_le_length hlt, List.take_add_one, hhead]
    rfl
  refine ⟨next, hlogged, hfront, hlength, ?_, ?_, ?_, hpositive⟩
  · rw [hfront, ← hentered, List.length_append]
    omega
  · rw [hfront, htake]
    exact hnext
  · rw [hfront, htake, List.flatMap_append, List.flatMap_singleton, hlowered, hvisited.lowered]

/-- The outer loop ends, and keeps what holds. -/
theorem Visited.visitAll (hlinked : graph.Linked) (fuel : Nat) {state : CycleState}
    (hvisited : Visited graph state) (hfuel : state.front + fuel = graph.taskCount) :
    ∃ last, visitLogged graph fuel state = some last ∧ Visited graph last := by
  induction fuel generalizing state with
  | zero =>
      have hend : state.queue[state.front]? = none := by
        have := hvisited.queue_le
        exact List.getElem?_eq_none (by omega)
      refine ⟨state, ?_, hvisited⟩
      rw [visitLogged, hend]
      rfl
  | succ fuel ih =>
      rw [visitLogged]
      cases hhead : state.queue[state.front]? with
      | none => exact ⟨state, rfl, hvisited⟩
      | some task =>
          obtain ⟨next, hwalk, hfront, hnext⟩ := hvisited.visit hlinked hhead
          simp only [hwalk, Option.bind_some]
          exact ih hnext (by omega)

/-- Before the first visit nothing is lowered. -/
theorem visited_start (hlinked : graph.Linked) :
    Visited graph ⟨graph.degrees, graph.sources, 0, []⟩ where
  table := (degreeOf_degrees hlinked).1
  front_le := Nat.zero_le _
  frontier := frontier_start hlinked
  lowered := rfl
  positive := by simp

end Lowering

/-! ## While the graph is created -/

/-- The graphs that phase three of `create` goes through: edges are appended in any order to the
graph that phase one leaves, from a task that a name was looked up for. -/
inductive DuringCreate (metadata : List (Option Json)) : Dependencies → Prop
  | named {graph : Dependencies}
      (hcopy : copyNames metadata 0 0 (blank metadata.length) = .ok graph) :
      DuringCreate metadata graph
  | appended {graph after : Dependencies} {name : Bytes} {predecessor dependent : Nat}
      (hgraph : DuringCreate metadata graph)
      (hpredecessor : nameIndex graph name = .ok (some predecessor))
      (hdependent : dependent < metadata.length)
      (happend : graph.appendEdge predecessor dependent = .ok after) : DuringCreate metadata after

section Creating

variable {metadata : List (Option Json)}

theorem DuringCreate.linked {graph : Dependencies} (hgraph : DuringCreate metadata graph) :
    graph.Linked ∧ graph.taskCount = metadata.length := by
  have hblank : (blank metadata.length).taskCount = metadata.length := by simp [taskCount, blank]
  induction hgraph with
  | named hcopy =>
      obtain ⟨hlinked, hcount⟩ :=
        copyNames_spec metadata 0 0 _ _ (linked_blank _) (by omega) hcopy
      exact ⟨hlinked, hcount.trans hblank⟩
  | appended _ hpredecessor hdependent happend ih =>
      obtain ⟨hlinked, hcount⟩ := ih
      obtain ⟨hafter, hsame⟩ := hlinked.appendEdge (hlinked.nameIndex_lt hpredecessor)
        (hcount.symm ▸ hdependent) happend
      exact ⟨hafter, hsame.trans hcount⟩

theorem DuringCreate.dependencies {task : Nat} (htask : task < metadata.length)
    (entries : List Json) {graph result : Dependencies} (hgraph : DuringCreate metadata graph)
    (happend : appendDependencies task entries graph = .ok result) :
    DuringCreate metadata result := by
  induction entries generalizing graph with
  | nil =>
      rw [appendDependencies, Except.ok.injEq] at happend
      exact happend ▸ hgraph
  | cons value rest ih =>
      simp only [appendDependencies] at happend
      split at happend
      · contradiction
      obtain ⟨index, hindex, happend⟩ := except_bind_eq_ok.mp happend
      cases index with
      | none => contradiction
      | some predecessor =>
          obtain ⟨middle, hmiddle, happend⟩ := except_bind_eq_ok.mp happend
          exact ih (hgraph.appended hindex htask hmiddle) happend

theorem DuringCreate.allDependencies (objects : List Json) {index : Nat}
    {graph result : Dependencies} (hgraph : DuringCreate metadata graph)
    (hlength : index + objects.length ≤ metadata.length)
    (happend : appendAllDependencies objects index graph = .ok result) :
    DuringCreate metadata result := by
  induction objects generalizing index graph with
  | nil =>
      rw [appendAllDependencies, Except.ok.injEq] at happend
      exact happend ▸ hgraph
  | cons object rest ih =>
      rw [List.length_cons] at hlength
      obtain ⟨middle, hmiddle, happend⟩ := except_bind_eq_ok.mp happend
      exact ih (hgraph.dependencies (by omega) _ hmiddle) (by omega) happend

/-- The graph that `create` checks for cycles, and returns, is one of them. -/
theorem duringCreate_of_create {graph : Dependencies} (hcreate : create metadata = .ok graph) :
    DuringCreate metadata graph := by
  simp only [create] at hcreate
  by_cases hcount : (decide (metadata.length = 0) || decide (metadata.length > maxTasks)) = true
  · rw [if_pos hcount] at hcreate
    contradiction
  rw [if_neg hcount] at hcreate
  obtain ⟨named, hnamed, hcreate⟩ := except_bind_eq_ok.mp hcreate
  obtain ⟨_, _, hcreate⟩ := except_bind_eq_ok.mp hcreate
  obtain ⟨result, hresult, hcreate⟩ := except_bind_eq_ok.mp hcreate
  obtain ⟨_, _, hcreate⟩ := except_bind_eq_ok.mp hcreate
  rw [Except.ok.injEq] at hcreate
  subst hcreate
  apply (DuringCreate.named hnamed).allDependencies _ _ hresult
  rw [Nat.zero_add]
  exact List.length_filterMap_le ..

end Creating

/-- The outgoing lists of a graph are exact, and the loops along them do what they should. -/
structure OutgoingExact (graph : Dependencies) : Prop where
  /-- From a task the walk ends, and meets the edges that leave the task, each once. -/
  chains : ∀ task < graph.taskCount, ∃ chain, Chain graph (graph.firstOf task) chain ∧
    chain.Nodup ∧ ∀ index, index ∈ chain ↔ ∃ dependent, graph.edgeAt index = some (task, dependent)
  /-- `check_cycles` ends, lowers no edge twice and no degree below zero, and enters no task twice,
  so that its queue is long enough. -/
  cycles : ∃ last, visitAllLogged graph = some last ∧
    checkCycles graph = (if last.front = graph.taskCount then .ok () else .error .cycle) ∧
    (last.lowered.map Prod.fst).Nodup ∧ (∀ entry ∈ last.lowered, 0 < entry.2) ∧
    last.queue.Nodup ∧ last.queue.length ≤ graph.taskCount
  /-- `has_edge` ends, and finds the edges that `edge_at` enumerates. -/
  hasEdge : ∀ predecessor dependent, ∃ result,
    praktorWorkflowDependenciesHasEdge graph predecessor dependent = some result ∧
      (predecessor < graph.taskCount → dependent < graph.taskCount → ∃ found, result = .ok found) ∧
      (result = .ok true ↔ ∃ index, graph.edgeAt index = some (predecessor, dependent))

/-- **Outgoing edge lists are exact.**  While edges are appended to a graph, after any number of
them, and when the graph is checked and returned. -/
theorem outgoing_edges_exact (metadata : List (Option Json)) (graph : Dependencies)
    (hgraph : DuringCreate metadata graph ∨ create metadata = .ok graph) :
    OutgoingExact graph := by
  obtain ⟨hlinked, _⟩ := (hgraph.elim id duringCreate_of_create).linked
  refine ⟨fun task _ => ?_, ?_, hlinked.hasEdge⟩
  · exact ⟨graph.leaving task, hlinked.chain task, nodup_leaving task, fun _ => mem_leaving⟩
  · obtain ⟨last, hlast, hvisited⟩ :=
      (visited_start hlinked).visitAll hlinked graph.taskCount (Nat.zero_add _)
    have hforget := visitLogged_forget graph graph.taskCount
      ⟨graph.degrees, graph.sources, 0, []⟩ (Nat.zero_le _)
    rw [hlast, Option.map_some] at hforget
    simp only [List.drop_zero] at hforget
    refine ⟨last, hlast, ?_, hvisited.lowered_nodup, hvisited.positive, hvisited.nodup,
      hvisited.queue_le⟩
    rw [checkCycles, hforget]

/-- Two tasks, the second of which names the first one twice. -/
def twiceNamed : List (Option Json) :=
  [some (.object [(ascii "name", .string (ascii "a"))]),
    some (.object [(ascii "name", .string (ascii "b")),
      (ascii "depends_on", .array [.string (ascii "a"), .string (ascii "a")])])]

theorem outgoing_edges_twiceNamed :
    ∃ graph, create twiceNamed = .ok graph ∧ graph.pairs = [(0, 1), (0, 1)] ∧
      OutgoingExact graph := by
  have hcreate : create twiceNamed =
      .ok ⟨[⟨ascii "a", some 1⟩, ⟨ascii "b", none⟩], [⟨0, 1, none⟩, ⟨0, 1, some 0⟩],
        [none, none, none, none, some 0, some 1, none, none]⟩ := by rfl
  exact ⟨_, hcreate, rfl, outgoing_edges_exact _ _ (.inr hcreate)⟩

end Dependencies

end Praktor.Workflow
