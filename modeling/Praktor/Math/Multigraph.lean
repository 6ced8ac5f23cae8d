/-
# Edge lists with multiplicity

A dependency graph is kept as a list of directed edges in which the same edge
may stand more than once.  Two algorithms read such a list: a counter that says
how many edges into a node still come from an unretired source, and the queue
algorithm that visits a node once this counter is zero.  This module states what
each counter step does, and shows that a completed visit is a topological order.

Nothing here fixes a representation of nodes or of degree tables: a degree table
is a function, and a caller with an array supplies its lookup function.
-/

import Mathlib.Data.Fintype.Card
import Mathlib.Data.List.Nodup
import Mathlib.Data.List.Perm.Subperm
import Mathlib.Data.Set.Finite.Basic
import Mathlib.Logic.Function.Basic
import Mathlib.Logic.Relation
import Mathlib.Order.WellFounded
import Praktor.Math.Run

namespace Praktor.Math.Multigraph

universe u

variable {α : Type u} [DecidableEq α]

/-! ## Counting the edges that still block a node -/

/-- Edges into `target` whose source is not retired, counted with multiplicity. -/
def openInto (edges : List (α × α)) (retired : α → Bool) (target : α) : Nat :=
  edges.countP fun edge => edge.2 = target ∧ retired edge.1 = false

/-- The targets of the edges leaving `source`, in list order and with repeats. -/
def dependentsOf (edges : List (α × α)) (source : α) : List α :=
  (edges.filter fun edge => edge.1 = source).map Prod.snd

theorem openInto_eq_zero_iff {edges : List (α × α)} {retired : α → Bool} {target : α} :
    openInto edges retired target = 0 ↔
      ∀ edge ∈ edges, edge.2 = target → retired edge.1 = true := by
  simp only [openInto, List.countP_eq_zero, decide_eq_true_eq, not_and, Bool.not_eq_false]

/-- Retiring one more source removes exactly the edges it contributes. -/
theorem openInto_retire (edges : List (α × α)) {before after : α → Bool} (source target : α)
    (hopen : before source = false)
    (hafter : ∀ node, after node = (decide (node = source) || before node)) :
    openInto edges before target =
      openInto edges after target + edges.count (source, target) := by
  induction edges with
  | nil => rfl
  | cons edge edges ih =>
      obtain ⟨first, second⟩ := edge
      simp only [openInto] at ih
      simp only [openInto, List.countP_cons, List.count_cons, ih, hafter, beq_iff_eq, Prod.mk.injEq]
      by_cases hfirst : first = source
      · subst hfirst
        by_cases hsecond : second = target <;> simp [hopen, hsecond]
        omega
      · by_cases hsecond : second = target <;> simp [hfirst, hsecond]
        omega

theorem count_dependentsOf (edges : List (α × α)) (source target : α) :
    (dependentsOf edges source).count target = edges.count (source, target) := by
  induction edges with
  | nil => rfl
  | cons edge edges ih =>
      obtain ⟨first, second⟩ := edge
      simp only [dependentsOf] at ih
      by_cases hfirst : first = source
      · simp [dependentsOf, hfirst, List.count_cons, ih]
      · simp [dependentsOf, hfirst, ih]

/-! ## Topological orders -/

/-- Every edge into a listed node leaves a node listed earlier. -/
def Ordered (edges : List (α × α)) (order : List α) : Prop :=
  ∀ before node after, order = before ++ node :: after →
    ∀ edge ∈ edges, edge.2 = node → edge.1 ∈ before

omit [DecidableEq α] in
theorem ordered_nil (edges : List (α × α)) : Ordered edges [] := by
  intro before node after hsplit
  simp at hsplit

omit [DecidableEq α] in
/-- An order may be extended by a node all of whose sources are already listed. -/
theorem Ordered.snoc {edges : List (α × α)} {order : List α} {node : α}
    (hordered : Ordered edges order)
    (hnode : ∀ edge ∈ edges, edge.2 = node → edge.1 ∈ order) :
    Ordered edges (order ++ [node]) := by
  intro before next after hsplit
  exact forall_split_append (fun before next => ∀ edge ∈ edges, edge.2 = next → edge.1 ∈ before)
    hordered hnode before next after hsplit

/-- Whatever has been retired so far, the first unretired node of a topological
order is blocked by nothing. -/
theorem Ordered.exists_open_eq_zero {edges : List (α × α)} {order : List α}
    (hordered : Ordered edges order) {retired : α → Bool}
    (hopen : ∃ node ∈ order, retired node = false) :
    ∃ node ∈ order, retired node = false ∧ openInto edges retired node = 0 := by
  obtain ⟨witness, hwitness, hwopen⟩ := hopen
  have hfound : (order.find? fun node => !retired node).isSome := by
    rw [List.find?_isSome]
    exact ⟨witness, hwitness, by simp [hwopen]⟩
  obtain ⟨node, hnode⟩ := Option.isSome_iff_exists.mp hfound
  obtain ⟨hunretired, before, after, hsplit, hbefore⟩ := List.find?_eq_some_iff_append.mp hnode
  refine ⟨node, List.mem_of_find?_eq_some hnode, by simpa using hunretired, ?_⟩
  rw [openInto_eq_zero_iff]
  intro edge hedge htarget
  have hmem := hordered before node after hsplit edge hedge htarget
  simpa using hbefore edge.1 hmem

/-- No node is reached from itself along one or more edges. -/
def Acyclic (edges : List (α × α)) : Prop :=
  ∀ node, ¬ Relation.TransGen (fun first second => (first, second) ∈ edges) node node

omit [DecidableEq α] in
/-- Whatever leads to a listed node stands before it. -/
theorem Ordered.mem_of_transGen {edges : List (α × α)} {order : List α}
    (hordered : Ordered edges order) {first node : α}
    (hpath : Relation.TransGen (fun first second => (first, second) ∈ edges) first node) :
    ∀ before after, order = before ++ node :: after → first ∈ before := by
  induction hpath with
  | single hedge =>
      intro before after hsplit
      exact hordered before _ after hsplit _ hedge rfl
  | tail _ hedge ih =>
      intro before after hsplit
      have hmiddle := hordered before _ after hsplit _ hedge rfl
      obtain ⟨earlier, later, rfl⟩ := List.append_of_mem hmiddle
      have hfirst := ih earlier (later ++ _ :: after) (by simpa using hsplit)
      exact List.mem_append_left _ hfirst

omit [DecidableEq α] in
/-- A graph whose edges all end in a topological order has no cycle. -/
theorem Ordered.acyclic {edges : List (α × α)} {order : List α} (hordered : Ordered edges order)
    (hcover : ∀ edge ∈ edges, edge.2 ∈ order) : Acyclic edges := by
  intro node hcycle
  have hmem : node ∈ order := by
    obtain ⟨_, _, hedge⟩ := Relation.TransGen.tail'_iff.mp hcycle
    exact hcover _ hedge
  obtain ⟨before, after, hsplit, hfresh⟩ := List.eq_append_cons_of_mem hmem
  exact hfresh (hordered.mem_of_transGen hcycle before after hsplit)

/-! ## The queue algorithm -/

/-- Lower the degree of each listed dependent by one, and enqueue a dependent at
the moment its degree reaches zero. -/
def sweep : List α → (α → Nat) × List α → (α → Nat) × List α
  | [], state => state
  | dependent :: rest, (degrees, queue) =>
      let degree := degrees dependent - 1
      sweep rest (Function.update degrees dependent degree,
        if degree = 0 then queue ++ [dependent] else queue)

/-- A sweep that never asks for more than a degree holds lowers each degree by
its multiplicity and enqueues exactly the nodes it brings to zero, once each. -/
theorem sweep_spec (dependents : List α) :
    ∀ (degrees : α → Nat) (queue : List α),
      (∀ node, dependents.count node ≤ degrees node) →
      ∃ pushed, sweep dependents (degrees, queue) =
          (fun node => degrees node - dependents.count node, queue ++ pushed) ∧
        pushed.Nodup ∧
        ∀ node, node ∈ pushed ↔ 0 < degrees node ∧ dependents.count node = degrees node := by
  induction dependents with
  | nil =>
      intro degrees queue _
      refine ⟨[], by simp [sweep], List.nodup_nil, fun node => ?_⟩
      simp only [List.not_mem_nil, List.count_nil, false_iff, not_and]
      omega
  | cons dependent rest ih =>
      intro degrees queue hle
      have hhead : rest.count dependent + 1 ≤ degrees dependent := by
        simpa using hle dependent
      have hrest : ∀ node, rest.count node ≤
          Function.update degrees dependent (degrees dependent - 1) node := by
        intro node
        by_cases hnode : node = dependent
        · subst hnode
          rw [Function.update_self]
          omega
        · rw [Function.update_of_ne hnode]
          simpa [List.count_cons, Ne.symm hnode] using hle node
      have hdegrees : (fun node => Function.update degrees dependent (degrees dependent - 1) node -
            rest.count node) = fun node => degrees node - (dependent :: rest).count node := by
        funext node
        by_cases hnode : node = dependent
        · subst hnode
          rw [Function.update_self, List.count_cons_self]
          omega
        · simp [Function.update_of_ne hnode, Ne.symm hnode]
      by_cases hzero : degrees dependent - 1 = 0
      · obtain ⟨pushed, hsweep, hnodup, hmem⟩ := ih _ (queue ++ [dependent]) hrest
        have hfresh : dependent ∉ pushed := by
          rw [hmem, Function.update_self]
          omega
        refine ⟨dependent :: pushed, ?_, hnodup.cons hfresh, fun node => ?_⟩
        · simp only [sweep, if_pos hzero, hsweep, hdegrees, List.append_assoc,
            List.cons_append, List.nil_append]
        · by_cases hnode : node = dependent
          · subst hnode
            simp only [List.mem_cons, true_or, List.count_cons_self, true_iff]
            omega
          · simp [hnode, hmem, Ne.symm hnode]
      · obtain ⟨pushed, hsweep, hnodup, hmem⟩ := ih _ queue hrest
        refine ⟨pushed, ?_, hnodup, fun node => ?_⟩
        · simp only [sweep, if_neg hzero, hsweep, hdegrees]
        · by_cases hnode : node = dependent
          · subst hnode
            rw [hmem, Function.update_self, List.count_cons_self]
            omega
          · simp [hmem, Function.update_of_ne hnode, Ne.symm hnode]

/-- What holds between two visits of the queue algorithm: degrees count the
edges from unvisited sources, the queue holds the unvisited nodes of degree
zero, and the visited nodes are in topological order. -/
structure Frontier (nodes : α → Prop) (edges : List (α × α)) (degrees : α → Nat)
    (visited queue : List α) : Prop where
  degrees_eq : ∀ node, degrees node = openInto edges (fun source => decide (source ∈ visited)) node
  nodup : (visited ++ queue).Nodup
  isNode : ∀ node ∈ visited ++ queue, nodes node
  mem_iff : ∀ node, nodes node → (node ∈ visited ++ queue ↔ degrees node = 0)
  ordered : Ordered edges visited

/-- A degree is made up of the edges that leave the head of the queue and those
that stay open once it is visited. -/
theorem Frontier.degrees_visit {nodes : α → Prop} {edges : List (α × α)} {degrees : α → Nat}
    {visited queue : List α} {task : α}
    (hfrontier : Frontier nodes edges degrees visited (task :: queue)) (node : α) :
    degrees node = openInto edges (fun source => decide (source ∈ visited ++ [task])) node +
      edges.count (task, node) := by
  have htask : task ∉ visited := by
    intro hin
    exact (List.nodup_append.mp hfrontier.nodup).2.2 task hin task (by simp) rfl
  rw [hfrontier.degrees_eq]
  refine openInto_retire edges task node (by simpa using htask) fun source => ?_
  by_cases hsource : source = task <;> simp [hsource]

/-- Visiting the head of the queue and sweeping its dependents re-establishes
the frontier. -/
theorem Frontier.visit {nodes : α → Prop} {edges : List (α × α)} {degrees : α → Nat}
    {visited queue dependents : List α} {task : α}
    (hfrontier : Frontier nodes edges degrees visited (task :: queue))
    (hendpoints : ∀ edge ∈ edges, nodes edge.2)
    (hdependents : ∀ node, dependents.count node = edges.count (task, node)) :
    ∃ degrees' queue', sweep dependents (degrees, queue) = (degrees', queue') ∧
      Frontier nodes edges degrees' (visited ++ [task]) queue' := by
  have hopen (node : α) : degrees node =
      openInto edges (fun source => decide (source ∈ visited ++ [task])) node +
        dependents.count node := by
    rw [hdependents]
    exact hfrontier.degrees_visit node
  obtain ⟨hdegrees, hnodup, hisNode, hmem, hordered⟩ := hfrontier
  have hle (node : α) : dependents.count node ≤ degrees node := by
    rw [hopen]
    omega
  obtain ⟨pushed, hsweep, hpushed, hpushedMem⟩ := sweep_spec dependents degrees queue hle
  refine ⟨_, _, hsweep, ?_, ?_, ?_, ?_, ?_⟩
  · intro node
    have := hopen node
    omega
  · have hold : (visited ++ task :: queue).Nodup := hnodup
    have hreassoc : visited ++ [task] ++ (queue ++ pushed) =
        (visited ++ task :: queue) ++ pushed := by simp
    rw [hreassoc, List.nodup_append]
    refine ⟨hold, hpushed, fun first hfirst second hsecond hequal => ?_⟩
    subst hequal
    -- a pushed node had a positive degree, so it was not in the frontier before
    have hdegree := (hmem first (hisNode first hfirst)).mp hfirst
    have hpositive := (hpushedMem first).mp hsecond
    omega
  · intro node hnode
    have hcases : node ∈ visited ++ task :: queue ∨ node ∈ pushed := by
      simp only [List.mem_append, List.mem_cons, List.not_mem_nil, or_false] at hnode ⊢
      tauto
    rcases hcases with hold | hnew
    · exact hisNode node hold
    · obtain ⟨hpositive, hcount⟩ := (hpushedMem node).mp hnew
      have hpos : 0 < edges.count (task, node) := by
        rw [← hdependents]
        omega
      exact hendpoints (task, node) (List.count_pos_iff.mp hpos)
  · intro node hnode
    have hsplit : node ∈ visited ++ [task] ++ (queue ++ pushed) ↔
        node ∈ visited ++ task :: queue ∨ node ∈ pushed := by
      simp only [List.mem_append, List.mem_cons, List.not_mem_nil, or_false]
      tauto
    rw [hsplit, hmem node hnode, hpushedMem]
    have := hle node
    omega
  · refine hordered.snoc fun edge hedge htarget => ?_
    have hzero : degrees task = 0 := (hmem task (hisNode task (by simp))).mp (by simp)
    rw [hdegrees, openInto_eq_zero_iff] at hzero
    simpa using hzero edge hedge htarget

/-- Without a cycle the queue runs empty only after every node has been visited. -/
theorem Frontier.mem_visited_of_acyclic {nodes : α → Prop} {edges : List (α × α)}
    {degrees : α → Nat} {visited : List α} (hfrontier : Frontier nodes edges degrees visited [])
    (hacyclic : Acyclic edges) (hsources : ∀ edge ∈ edges, nodes edge.1) {node : α}
    (hnode : nodes node) : node ∈ visited := by
  -- an unvisited node has an unvisited source, so the sources would descend forever
  have hblocked : ∀ blocked, nodes blocked → blocked ∉ visited →
      ∃ source, (source, blocked) ∈ edges ∧ source ∉ visited := by
    intro blocked hblockedNode hunvisited
    have hdegree : degrees blocked ≠ 0 := by
      rw [Ne, ← hfrontier.mem_iff blocked hblockedNode]
      simpa using hunvisited
    rw [hfrontier.degrees_eq, Ne, openInto_eq_zero_iff] at hdegree
    push Not at hdegree
    obtain ⟨⟨source, target⟩, hedge, rfl, hsource⟩ := hdegree
    exact ⟨source, hedge, by simpa using hsource⟩
  by_contra hunvisited
  obtain ⟨start, hstart, hstartUnvisited⟩ := hblocked node hnode hunvisited
  have hfinite : Finite { source // source ∈ edges.map Prod.fst } :=
    (List.finite_toSet (edges.map Prod.fst)).to_subtype
  let below (first second : { source // source ∈ edges.map Prod.fst }) : Prop :=
    Relation.TransGen (fun first second => (first, second) ∈ edges) first.1 second.1
  have htrans : IsTrans _ below := ⟨fun _ _ _ => Relation.TransGen.trans⟩
  have hirrefl : Std.Irrefl below := ⟨fun source => hacyclic source.1⟩
  have hwellFounded : WellFounded below := Finite.wellFounded_of_trans_of_irrefl below
  obtain ⟨least, hleast, hminimal⟩ := hwellFounded.has_min
    { source | source.1 ∉ visited } ⟨⟨start, List.mem_map_of_mem hstart⟩, hstartUnvisited⟩
  obtain ⟨edge, hedge, hsource⟩ := List.mem_map.mp least.2
  obtain ⟨earlier, hearlier, hearlierUnvisited⟩ := hblocked least.1
    (hsource ▸ hsources edge hedge) hleast
  exact hminimal ⟨earlier, List.mem_map_of_mem hearlier⟩ hearlierUnvisited (.single hearlier)

/-- A frontier with an empty queue that has visited as many nodes as there are
lists every node, so its visit order covers the graph. -/
theorem Frontier.mem_visited_of_length {edges : List (Nat × Nat)} {degrees : Nat → Nat}
    {count : Nat} {visited : List Nat}
    (hfrontier : Frontier (· < count) edges degrees visited [])
    (hlength : visited.length = count) {node : Nat} (hnode : node < count) :
    node ∈ visited := by
  have hnodup : visited.Nodup := by simpa using hfrontier.nodup
  have hsubset : visited ⊆ List.range count := by
    intro member hmember
    exact List.mem_range.mpr (hfrontier.isNode member (by simpa using hmember))
  have hperm : visited.Perm (List.range count) :=
    (List.subperm_of_subset hnodup hsubset).perm_of_length_le (by simp [hlength])
  exact hperm.mem_iff.mpr (List.mem_range.mpr hnode)

end Praktor.Math.Multigraph
