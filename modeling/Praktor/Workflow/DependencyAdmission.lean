/-
# Exactly which dependency graphs are admitted

The conditions under which `create` returns a graph, one group for each phase, stated on the
metadata alone: the names, the trigger targets, the `depends_on` entries and the directed
graph the entries form.

The main result: `create` succeeds exactly on metadata that meets all of them, the edges it
then enumerates are the declared ones, and a refusal belongs to the first phase whose
conditions are not met.
-/

import Praktor.Workflow.NameIndex

namespace Praktor.Workflow

open Praktor.Data Praktor.Math Praktor.Math.Multigraph

namespace Dependencies

/-! ## What the metadata declares -/

/-- The targets of one trigger group. -/
def groupTargets (object : Json) (category : Bytes) : List Json :=
  (((object.objectGet (ascii "triggers")).bind fun triggers =>
    triggers.objectGet category).map Json.arrayItems).getD []

/-- The trigger targets of a task, its `finally` target last. -/
def triggerTargets (object : Json) : List Json :=
  groupTargets object (ascii "on_success") ++ groupTargets object (ascii "on_failure") ++
    groupTargets object (ascii "on_complete") ++ (object.objectGet (ascii "finally")).toList

/-- The `depends_on` entries of a task. -/
def dependsOn (object : Json) : List Json :=
  ((object.objectGet (ascii "depends_on")).map Json.arrayItems).getD []

/-- The edge an entry of a task declares. -/
def declaredEdge (names : List Bytes) (task : Nat) (entry : Json) : Nat × Nat :=
  (names.idxOf (entry.stringText.getD []), task)

/-- The pairs of named task and depending task, in declaration order. -/
def declaredEdges (metadata : List (Option Json)) : List (Nat × Nat) :=
  metadata.zipIdx.flatMap fun (object, task) =>
    ((object.map dependsOn).getD []).map (declaredEdge (taskNames metadata) task)

/-! ## What is admitted -/

/-- A static target must name a task; empty and dynamic targets are not static. -/
def TargetAdmitted (names : List Bytes) (target : Json) : Prop :=
  ∃ text, target.stringText = some text ∧
    (text = [] ∨ [123, 123] <:+: text ∨ [125, 125] <:+: text ∨ text ∈ names)

/-- An entry must name a task. -/
def EntryAdmitted (names : List Bytes) (entry : Json) : Prop :=
  ∃ text, entry.stringText = some text ∧ text ∈ names

/-- What phase two asks. -/
def TriggersAdmitted (metadata : List (Option Json)) : Prop :=
  ∀ object, some object ∈ metadata → ∀ target ∈ triggerTargets object,
    TargetAdmitted (taskNames metadata) target

/-- What phase three asks. -/
structure DependenciesAdmitted (metadata : List (Option Json)) : Prop where
  named : ∀ object, some object ∈ metadata → ∀ entry ∈ dependsOn object,
    EntryAdmitted (taskNames metadata) entry
  count_le : (metadata.map fun object => ((object.map dependsOn).getD []).length).sum ≤ maxEdges

/-- The metadata `create` turns into a graph. -/
structure Admitted (metadata : List (Option Json)) : Prop where
  count : 1 ≤ metadata.length ∧ metadata.length ≤ maxTasks
  names : NamesAdmitted [] metadata
  triggers : TriggersAdmitted metadata
  dependencies : DependenciesAdmitted metadata
  acyclic : Acyclic (declaredEdges metadata)

/-- The conditions of a phase are the first ones that are not met. -/
def RefusedIn (metadata : List (Option Json)) : Phase → Prop
  | .arguments => ¬ (1 ≤ metadata.length ∧ metadata.length ≤ maxTasks)
  | .names => (1 ≤ metadata.length ∧ metadata.length ≤ maxTasks) ∧ ¬ NamesAdmitted [] metadata
  | .triggers => (1 ≤ metadata.length ∧ metadata.length ≤ maxTasks) ∧
      NamesAdmitted [] metadata ∧ ¬ TriggersAdmitted metadata
  | .dependencies => (1 ≤ metadata.length ∧ metadata.length ≤ maxTasks) ∧
      NamesAdmitted [] metadata ∧ TriggersAdmitted metadata ∧ ¬ DependenciesAdmitted metadata
  | .cycles => (1 ≤ metadata.length ∧ metadata.length ≤ maxTasks) ∧
      NamesAdmitted [] metadata ∧ TriggersAdmitted metadata ∧ DependenciesAdmitted metadata ∧
      ¬ Acyclic (declaredEdges metadata)

/-! ## Phase two -/

theorem cons_cons_infix_iff {first second mark : UInt8} {rest : Bytes} :
    [mark, mark] <:+: first :: second :: rest ↔
      (first = mark ∧ second = mark) ∨ [mark, mark] <:+: second :: rest := by
  rw [List.infix_cons_iff]
  apply or_congr_left
  simp [List.cons_prefix_cons, eq_comm]

/-- `has_dynamic_marker` looks for two equal adjacent braces. -/
theorem hasDynamicMarker_iff (text : Bytes) :
    hasDynamicMarker text = true ↔ [123, 123] <:+: text ∨ [125, 125] <:+: text := by
  induction text with
  | nil => simp [hasDynamicMarker]
  | cons first rest ih =>
      cases rest with
      | nil =>
          have hshort (mark : UInt8) : ¬ [mark, mark] <:+: [first] := by
            intro hinfix
            have := hinfix.length_le
            simp at this
          simp [hasDynamicMarker, hshort]
      | cons second rest =>
          rw [cons_cons_infix_iff, cons_cons_infix_iff, hasDynamicMarker]
          simp only [Bool.or_eq_true, Bool.and_eq_true, decide_eq_true_eq, ih]
          tauto

section Triggers

variable {graph : Dependencies} {names : List Bytes}

/-- A failure of phase two. -/
def InTriggers (error : DependencyError) : Prop := error.phase = some .triggers

theorem checkTriggerName_decides (hindexed : Indexed graph names) (task : Nat)
    (category text : Bytes) :
    Decides InTriggers (checkTriggerName graph task category text)
      (text = [] ∨ [123, 123] <:+: text ∨ [125, 125] <:+: text ∨ text ∈ names) := by
  have hmarker := hasDynamicMarker_iff text
  rw [checkTriggerName]
  split
  · rename_i hskipped
    refine .inl ⟨?_, (), rfl⟩
    rw [Bool.or_eq_true, decide_eq_true_eq, hmarker, List.length_eq_zero_iff] at hskipped
    tauto
  · rename_i hstatic
    rw [Bool.or_eq_true, decide_eq_true_eq, hmarker, List.length_eq_zero_iff] at hstatic
    rw [hindexed.nameIndex_eq]
    by_cases hknown : text ∈ names
    · exact .inl ⟨by tauto, (), by simp [hknown, bind, Except.bind]⟩
    · exact .inr ⟨by tauto, .unknownTrigger (taskName graph task) category text,
        by simp [hknown, bind, Except.bind], rfl⟩

theorem checkTriggerList_decides (hindexed : Indexed graph names) (task : Nat) (object : Json)
    (category : Bytes) :
    Decides InTriggers
      (checkTriggerList graph task (object.objectGet (ascii "triggers")) category)
      (∀ target ∈ groupTargets object category, TargetAdmitted names target) := by
  rw [checkTriggerList, groupTargets]
  split
  · rename_i hnone
    exact .inl ⟨by simp [hnone], (), rfl⟩
  · rename_i list hlist
    rw [hlist]
    apply decides_forM
    intro target
    cases htext : target.stringText with
    | none =>
        refine .inr ⟨?_, .invalidTrigger, rfl, rfl⟩
        rintro ⟨text, hsome, _⟩
        rw [htext] at hsome
        cases hsome
    | some text =>
        apply (checkTriggerName_decides hindexed task category text).iff
        simp [TargetAdmitted, htext]

/-- The target of `finally`. -/
theorem checkFinally_decides (hindexed : Indexed graph names) (task : Nat) (object : Json) :
    Decides InTriggers
      (match object.objectGet (ascii "finally") with
        | none => Except.ok ()
        | some target =>
            match target.stringText with
            | none => .error .invalidFinally
            | some name => checkTriggerName graph task (ascii "on_complete") name)
      (∀ target ∈ (object.objectGet (ascii "finally")).toList, TargetAdmitted names target) := by
  cases hget : object.objectGet (ascii "finally") with
  | none => exact .inl ⟨by simp, (), rfl⟩
  | some target =>
      cases htext : target.stringText with
      | none =>
          refine .inr ⟨?_, .invalidFinally, by simp [htext], rfl⟩
          intro hall
          obtain ⟨text, hsome, _⟩ := hall target (by simp)
          rw [htext] at hsome
          cases hsome
      | some text =>
          simp only [htext]
          apply (checkTriggerName_decides hindexed task _ text).iff
          simp [TargetAdmitted, htext]

theorem checkTriggers_decides (hindexed : Indexed graph names) (task : Nat) (object : Json) :
    Decides InTriggers (checkTriggers graph task object)
      (∀ target ∈ triggerTargets object, TargetAdmitted names target) := by
  have hall := (checkTriggerList_decides hindexed task object (ascii "on_success")).bind
    ((checkTriggerList_decides hindexed task object (ascii "on_failure")).bind
      ((checkTriggerList_decides hindexed task object (ascii "on_complete")).bind
        (checkFinally_decides hindexed task object)))
  rw [checkTriggers]
  refine hall.iff ?_
  simp only [triggerTargets, List.mem_append, or_imp, forall_and, and_assoc]

/-- Phase two admits the tasks whose targets are all admitted. -/
theorem checkAllTriggers_decides (hindexed : Indexed graph names) (objects : List Json)
    (index : Nat) :
    Decides InTriggers (checkAllTriggers graph objects index)
      (∀ object ∈ objects, ∀ target ∈ triggerTargets object, TargetAdmitted names target) := by
  induction objects generalizing index with
  | nil => exact .inl ⟨by simp, (), rfl⟩
  | cons object rest ih =>
      apply ((checkTriggers_decides hindexed index object).bind (ih (index + 1))).iff
      simp

end Triggers

/-! ## Phase three -/

section Edges

variable {graph : Dependencies} {names : List Bytes}

/-- The index only depends on the slots and on the copied names. -/
theorem Indexed.of_sameNames (hindexed : Indexed graph names) {after : Dependencies}
    (hslots : after.nameSlots = graph.nameSlots)
    (hnames : after.tasks.map DependencyName.bytes = graph.tasks.map DependencyName.bytes) :
    Indexed after names := by
  have hbytes (task : Nat) : after.tasks[task]?.map DependencyName.bytes =
      graph.tasks[task]?.map DependencyName.bytes := by
    rw [← List.getElem?_map, ← List.getElem?_map, hnames]
  have htaskName : after.taskName = graph.taskName := by
    funext task
    rw [taskName, taskName, hbytes]
  have hcount : after.taskCount = graph.taskCount := by
    simpa [taskCount] using congrArg List.length hnames
  refine ⟨?_, ?_, ?_, ?_, ?_, ?_, hindexed.nodup⟩
  · intro task name hname
    rw [hbytes]
    exact hindexed.named task name hname
  · rw [hslots]
    exact hindexed.entered
  · rw [hslots]
    exact hindexed.filled
  · rw [hslots]
    exact hindexed.room
  · rw [hcount]
    exact hindexed.count_le
  · rw [slotNames, hslots, htaskName]
    exact hindexed.findable

/-- An edge that fits is appended, and the index stays as it is. -/
theorem Indexed.appendEdge (hindexed : Indexed graph names) (predecessor dependent : Nat)
    (hroom : graph.edges.length < maxEdges) :
    ∃ result, graph.appendEdge predecessor dependent = .ok result ∧ Indexed result names ∧
      result.pairs = graph.pairs ++ [(predecessor, dependent)] := by
  refine ⟨_, if_neg (by omega), hindexed.of_sameNames rfl ?_, ?_⟩
  · apply List.ext_getElem?
    intro task
    simp only [List.getElem?_map, List.getElem?_modify]
    cases graph.tasks[task]? with
    | none => rfl
    | some entry => by_cases hequal : predecessor = task <;> simp [hequal]
  · simp [pairs]

/-- A failure of phase three. -/
def InDependencies (error : DependencyError) : Prop := error.phase = some .dependencies

theorem length_pairs (graph : Dependencies) : graph.pairs.length = graph.edges.length := by
  simp [pairs]

/-- A failed lookup refuses the entry. -/
theorem appendDependencies_refused (hindexed : Indexed graph names) (task : Nat) (entry : Json)
    (rest : List Json) (hentry : ¬ EntryAdmitted names entry) :
    ∃ error, appendDependencies task (entry :: rest) graph = .error error ∧
      InDependencies error := by
  cases htext : entry.stringText with
  | none => exact ⟨.invalidDependency, by simp [appendDependencies, htext], rfl⟩
  | some text =>
      have hunknown : text ∉ names := fun hmem => hentry ⟨text, htext, hmem⟩
      refine ⟨.unknownDependency (taskName graph task) text, ?_, rfl⟩
      simp [appendDependencies, htext, hindexed.nameIndex_eq, hunknown, bind, Except.bind]

/-- An entry that names a task appends its edge. -/
theorem appendDependencies_cons (hindexed : Indexed graph names) (task : Nat) {entry : Json}
    (rest : List Json) (hentry : EntryAdmitted names entry) :
    appendDependencies task (entry :: rest) graph =
      (graph.appendEdge (declaredEdge names task entry).1 task >>= fun next =>
        appendDependencies task rest next) := by
  obtain ⟨text, htext, hknown⟩ := hentry
  simp [appendDependencies, htext, hindexed.nameIndex_eq, hknown, declaredEdge, bind, Except.bind]

/-- The entries of one task are appended in order, if all of them name a task and there is
room for them. -/
theorem appendDependencies_cases (hindexed : Indexed graph names)
    (hle : graph.edges.length ≤ maxEdges) (task : Nat) (entries : List Json) :
    (((∀ entry ∈ entries, EntryAdmitted names entry) ∧
          graph.edges.length + entries.length ≤ maxEdges) ∧
        ∃ result, appendDependencies task entries graph = .ok result ∧ Indexed result names ∧
          result.pairs = graph.pairs ++ entries.map (declaredEdge names task)) ∨
      (¬ ((∀ entry ∈ entries, EntryAdmitted names entry) ∧
          graph.edges.length + entries.length ≤ maxEdges) ∧
        ∃ error, appendDependencies task entries graph = .error error ∧ InDependencies error) := by
  induction entries generalizing graph with
  | nil => exact .inl ⟨⟨by simp, by simpa using hle⟩, graph, rfl, hindexed, by simp⟩
  | cons entry rest ih =>
      by_cases hentry : EntryAdmitted names entry
      · rw [appendDependencies_cons hindexed task rest hentry]
        by_cases hfull : graph.edges.length = maxEdges
        · refine .inr ⟨?_, .edgeLimit, ?_, rfl⟩
          · rintro ⟨_, hcount⟩
            rw [List.length_cons] at hcount
            omega
          · rw [appendEdge, if_pos hfull]
            rfl
        · obtain ⟨next, hnext, hnextIndexed, hpairs⟩ :=
            hindexed.appendEdge (declaredEdge names task entry).1 task (by omega)
          have hlength : next.edges.length = graph.edges.length + 1 := by
            rw [← length_pairs, hpairs, List.length_append, length_pairs]
            rfl
          have hadmitted : ((∀ other ∈ entry :: rest, EntryAdmitted names other) ∧
              graph.edges.length + (entry :: rest).length ≤ maxEdges) ↔
              (∀ other ∈ rest, EntryAdmitted names other) ∧
                next.edges.length + rest.length ≤ maxEdges := by
            rw [List.forall_mem_cons, List.length_cons, hlength]
            constructor
            · rintro ⟨⟨_, hrest⟩, hcount⟩
              exact ⟨hrest, by omega⟩
            · rintro ⟨hrest, hcount⟩
              exact ⟨⟨hentry, hrest⟩, by omega⟩
          have hdeclared : graph.pairs ++ (entry :: rest).map (declaredEdge names task) =
              next.pairs ++ rest.map (declaredEdge names task) := by
            rw [hpairs, List.map_cons, List.append_assoc]
            rfl
          rw [hnext, hadmitted, hdeclared]
          exact ih hnextIndexed (by omega)
      · refine .inr ⟨?_, appendDependencies_refused hindexed task entry rest hentry⟩
        rintro ⟨hall, _⟩
        exact hentry (hall entry List.mem_cons_self)

/-- The edges the tasks from `index` on declare. -/
def declaredFrom (names : List Bytes) : List Json → Nat → List (Nat × Nat)
  | [], _ => []
  | object :: rest, index =>
      (dependsOn object).map (declaredEdge names index) ++ declaredFrom names rest (index + 1)

/-- Phase three appends the declared edges, if all entries name tasks and there is room. -/
theorem appendAllDependencies_cases (hindexed : Indexed graph names)
    (hle : graph.edges.length ≤ maxEdges) (objects : List Json) (index : Nat) :
    (((∀ object ∈ objects, ∀ entry ∈ dependsOn object, EntryAdmitted names entry) ∧
          graph.edges.length + (objects.map fun object => (dependsOn object).length).sum ≤
            maxEdges) ∧
        ∃ result, appendAllDependencies objects index graph = .ok result ∧
          result.pairs = graph.pairs ++ declaredFrom names objects index) ∨
      (¬ ((∀ object ∈ objects, ∀ entry ∈ dependsOn object, EntryAdmitted names entry) ∧
          graph.edges.length + (objects.map fun object => (dependsOn object).length).sum ≤
            maxEdges) ∧
        ∃ error, appendAllDependencies objects index graph = .error error ∧
          InDependencies error) := by
  induction objects generalizing graph index with
  | nil => exact .inl ⟨⟨by simp, by simpa using hle⟩, graph, rfl, by simp [declaredFrom]⟩
  | cons object rest ih =>
      rw [List.forall_mem_cons, List.map_cons, List.sum_cons]
      rcases appendDependencies_cases hindexed hle index (dependsOn object) with
        ⟨⟨hentries, hcount⟩, next, hnext, hnextIndexed, hpairs⟩ | ⟨hrefused, error, herror, hphase⟩
      · have hlength : next.edges.length = graph.edges.length + (dependsOn object).length := by
          rw [← length_pairs, hpairs, List.length_append, length_pairs, List.length_map]
        have happend : appendAllDependencies (object :: rest) index graph =
            appendAllDependencies rest (index + 1) next := by
          rw [appendAllDependencies]
          exact congrArg (· >>= _) hnext
        have hdeclared : graph.pairs ++ declaredFrom names (object :: rest) index =
            next.pairs ++ declaredFrom names rest (index + 1) := by
          rw [hpairs, declaredFrom, List.append_assoc]
        rw [happend, hdeclared, ← Nat.add_assoc, ← hlength]
        simp only [and_iff_right hentries]
        exact ih hnextIndexed (by omega) (index + 1)
      · refine .inr ⟨?_, error, ?_, hphase⟩
        · rintro ⟨⟨hentries, _⟩, hcount⟩
          exact hrefused ⟨hentries, by omega⟩
        · rw [appendAllDependencies]
          exact congrArg (· >>= _) herror

end Edges

/-! ## Phase four -/

/-- `check_cycles` accepts exactly the graphs without a cycle. -/
theorem checkCycles_decides {graph : Dependencies} (hlinked : graph.Linked) :
    Decides (· = .cycle) (checkCycles graph) (Acyclic graph.pairs) := by
  obtain ⟨table, visited, hvisit, hfrontier⟩ := visitQueue_spec hlinked graph.taskCount
    graph.degrees [] graph.sources (degreeOf_degrees hlinked).1 (by simp) (frontier_start hlinked)
  simp only [List.length_nil] at hvisit
  simp only [checkCycles, hvisit]
  by_cases hall : visited.length = graph.taskCount
  · refine .inl ⟨hfrontier.ordered.acyclic fun edge hedge => ?_, (), if_pos hall⟩
    exact hfrontier.mem_visited_of_length hall (hlinked.mem_pairs edge hedge).2
  · refine .inr ⟨fun hacyclic => hall ?_, .cycle, if_neg hall, rfl⟩
    have hmem (task : Nat) : task ∈ visited ↔ task ∈ List.range graph.taskCount := by
      rw [List.mem_range]
      constructor
      · exact fun hvisited => hfrontier.isNode task (by simpa using hvisited)
      · exact hfrontier.mem_visited_of_acyclic hacyclic fun edge hedge =>
          (hlinked.mem_pairs edge hedge).1
    have hnodup : visited.Nodup := by simpa using hfrontier.nodup
    have hperm := (List.perm_ext_iff_of_nodup hnodup List.nodup_range).mpr hmem
    simpa using hperm.length_eq

/-! ## The four phases together -/

/-- `create` with its out parameter, which is written only when a graph is returned. -/
def createInto (metadata : List (Option Json)) (out : Option Dependencies) :
    Except DependencyError Unit × Option Dependencies :=
  match create metadata with
  | .error error => (.error error, out)
  | .ok graph => (.ok (), some graph)

theorem mem_objects {metadata : List (Option Json)} {object : Json} :
    object ∈ metadata.filterMap id ↔ some object ∈ metadata := by
  simp [List.mem_filterMap]

/-- Named tasks are all there. -/
theorem NamesAdmitted.eq_map_some {before : List Bytes} {metadata : List (Option Json)}
    (hnames : NamesAdmitted before metadata) : metadata = (metadata.filterMap id).map some := by
  have hsome : ∀ object ∈ metadata, object.isSome := by
    intro object hmem
    obtain ⟨name, hname, _⟩ := hnames.named object hmem
    cases object with
    | none => simp [nameOf] at hname
    | some object => rfl
  clear hnames
  induction metadata with
  | nil => rfl
  | cons object rest ih =>
      obtain ⟨hobject, hrest⟩ := List.forall_mem_cons.mp hsome
      obtain ⟨value, rfl⟩ := Option.isSome_iff_exists.mp hobject
      change some value :: rest = some value :: (rest.filterMap id).map some
      rw [← ih hrest]

theorem flatMap_zipIdx_eq_declaredFrom (names : List Bytes) (objects : List Json) (index : Nat) :
    ((objects.map some).zipIdx index).flatMap (fun (object, task) =>
      ((object.map dependsOn).getD []).map (declaredEdge names task)) =
      declaredFrom names objects index := by
  induction objects generalizing index with
  | nil => rfl
  | cons object rest ih =>
      rw [List.map_cons, List.zipIdx_cons, List.flatMap_cons, ih]
      rfl

theorem declaredEdges_eq {metadata : List (Option Json)} {before : List Bytes}
    (hnames : NamesAdmitted before metadata) :
    declaredEdges metadata = declaredFrom (taskNames metadata) (metadata.filterMap id) 0 := by
  rw [← flatMap_zipIdx_eq_declaredFrom, ← hnames.eq_map_some]
  rfl

/-- Phase three asks for what its loop checks. -/
theorem dependenciesAdmitted_iff {metadata : List (Option Json)} {before : List Bytes}
    (hnames : NamesAdmitted before metadata) :
    DependenciesAdmitted metadata ↔
      (∀ object ∈ metadata.filterMap id, ∀ entry ∈ dependsOn object,
        EntryAdmitted (taskNames metadata) entry) ∧
      ((metadata.filterMap id).map fun object => (dependsOn object).length).sum ≤ maxEdges := by
  have hcount : (metadata.map fun object => ((object.map dependsOn).getD []).length) =
      (metadata.filterMap id).map fun object => (dependsOn object).length := by
    conv_lhs => rw [hnames.eq_map_some, List.map_map]
    rfl
  simp only [mem_objects]
  constructor
  · rintro ⟨hnamed, hle⟩
    rw [hcount] at hle
    exact ⟨hnamed, hle⟩
  · rintro ⟨hnamed, hle⟩
    rw [← hcount] at hle
    exact ⟨hnamed, hle⟩

/-- With an admitted number of tasks `create` is its four phases. -/
theorem create_eq_phases {metadata : List (Option Json)}
    (hcount : 1 ≤ metadata.length ∧ metadata.length ≤ maxTasks) :
    create metadata = (do
      let graph ← copyNames metadata 0 0 (blank metadata.length)
      checkAllTriggers graph (metadata.filterMap id) 0
      let graph ← appendAllDependencies (metadata.filterMap id) 0 graph
      checkCycles graph
      .ok graph) := by
  have hgood : ¬ (decide (metadata.length = 0) || decide (metadata.length > maxTasks)) = true := by
    simp only [Bool.or_eq_true, decide_eq_true_eq]
    omega
  rw [create, if_neg hgood]

/-- Phase one on the tables `create` allocates. -/
theorem copyNames_blank_cases (metadata : List (Option Json)) (hpositive : 1 ≤ metadata.length) :
    (NamesAdmitted [] metadata ∧ ∃ graph,
        copyNames metadata 0 0 (blank metadata.length) = .ok graph ∧
          Indexed graph (taskNames metadata) ∧ graph.edges = [] ∧ graph.Linked ∧
          graph.taskCount = metadata.length) ∨
      (¬ NamesAdmitted [] metadata ∧ ∃ error,
        copyNames metadata 0 0 (blank metadata.length) = .error error ∧
          error.phase = some .names) := by
  have hblank : (blank metadata.length).taskCount = metadata.length := by simp [taskCount, blank]
  have hslots : metadata.length < (blank metadata.length).nameSlots.length := by
    have hdouble := le_slotCount metadata.length metadata.length 8 (by
      have := @Nat.lt_two_pow_self metadata.length
      omega)
    simp only [blank, List.length_replicate]
    omega
  rcases copyNames_cases metadata (indexed_blank metadata.length) (Nat.zero_le _)
    (by simp [hblank]) (by simpa using hslots) with
    ⟨hnames, graph, hcopy, hindexed, hedges⟩ | hrefused
  · obtain ⟨hlinked, hcount⟩ := copyNames_spec metadata 0 0 (blank metadata.length) graph
      (linked_blank _) (by omega) hcopy
    exact .inl ⟨hnames, graph, hcopy, hindexed, hedges, hlinked, hcount.trans hblank⟩
  · exact .inr hrefused

/-- What `create` returns, phase by phase. -/
theorem create_cases (metadata : List (Option Json)) :
    (Admitted metadata ∧ ∃ graph, create metadata = .ok graph ∧
        graph.taskCount = metadata.length ∧ graph.pairs = declaredEdges metadata) ∨
      ∃ phase error, RefusedIn metadata phase ∧ create metadata = .error error ∧
        error.phase = some phase := by
  by_cases hcount : 1 ≤ metadata.length ∧ metadata.length ≤ maxTasks
  case neg =>
    refine .inr ⟨.arguments, .invalidArguments, hcount, ?_, rfl⟩
    have hbad : (decide (metadata.length = 0) || decide (metadata.length > maxTasks)) = true := by
      simp only [Bool.or_eq_true, decide_eq_true_eq]
      omega
    rw [create, if_pos hbad]
    rfl
  rw [create_eq_phases hcount]
  rcases copyNames_blank_cases metadata hcount.1 with
    ⟨hnames, graph, hcopy, hindexed, hedges, hlinked, hgraphCount⟩ | ⟨hrefused, error, herror, hphase⟩
  case inr =>
    refine .inr ⟨.names, error, ⟨hcount, hrefused⟩, ?_, hphase⟩
    rw [herror]
    rfl
  rw [hcopy]
  rcases checkAllTriggers_decides hindexed (metadata.filterMap id) 0 with
    ⟨htargets, _, hcheck⟩ | ⟨hrefused, error, herror, hphase⟩
  case inr =>
    refine .inr ⟨.triggers, error, ⟨hcount, hnames, fun htriggers => hrefused ?_⟩, ?_, hphase⟩
    · exact fun object hmem => htriggers object (mem_objects.mp hmem)
    · simp only [bind, Except.bind, herror]
  have htriggers : TriggersAdmitted metadata := fun object hmem =>
    htargets object (mem_objects.mpr hmem)
  have hempty : graph.edges.length = 0 := by rw [hedges, List.length_nil]
  have hthird := appendAllDependencies_cases hindexed (by omega) (metadata.filterMap id) 0
  rw [hempty, Nat.zero_add, ← dependenciesAdmitted_iff hnames] at hthird
  rcases hthird with ⟨hdependencies, result, hresult, hpairs⟩ | ⟨hrefused, error, herror, hphase⟩
  case inr =>
    refine .inr ⟨.dependencies, error, ⟨hcount, hnames, htriggers, hrefused⟩, ?_, hphase⟩
    simp only [bind, Except.bind, hcheck, herror]
  have hdeclared : result.pairs = declaredEdges metadata := by
    rw [hpairs, declaredEdges_eq hnames, pairs, hedges]
    rfl
  have hfilter : (metadata.filterMap id).length ≤ metadata.length := List.length_filterMap_le _ _
  obtain ⟨hresultLinked, hresultCount⟩ := appendAllDependencies_spec (metadata.filterMap id) 0 graph
    result hlinked (by omega) hresult
  rcases checkCycles_decides hresultLinked with ⟨hacyclic, _, hvisit⟩ | ⟨hcycle, error, herror, rfl⟩
  · rw [hdeclared] at hacyclic
    refine .inl ⟨⟨hcount, hnames, htriggers, hdependencies, hacyclic⟩, result, ?_, ?_, hdeclared⟩
    · simp only [bind, Except.bind, hcheck, hresult, hvisit]
    · omega
  · rw [hdeclared] at hcycle
    refine .inr ⟨.cycles, .cycle, ⟨hcount, hnames, htriggers, hdependencies, hcycle⟩, ?_, rfl⟩
    simp only [bind, Except.bind, hcheck, hresult, herror]

/-- Admitted metadata is refused in no phase. -/
theorem RefusedIn.not_admitted {metadata : List (Option Json)} {phase : Phase}
    (hrefused : RefusedIn metadata phase) : ¬ Admitted metadata := by
  intro hadmitted
  cases phase with
  | arguments => exact hrefused hadmitted.count
  | names => exact hrefused.2 hadmitted.names
  | triggers => exact hrefused.2.2 hadmitted.triggers
  | dependencies => exact hrefused.2.2.2 hadmitted.dependencies
  | cycles => exact hrefused.2.2.2.2 hadmitted.acyclic

/-- The contract of `create`. -/
structure CreateContract (metadata : List (Option Json)) : Prop where
  ok_iff : (∃ graph, create metadata = .ok graph) ↔ Admitted metadata
  edges : ∀ graph, create metadata = .ok graph →
    graph.edgeCount = (declaredEdges metadata).length ∧
      ∀ index, graph.edgeAt index = (declaredEdges metadata)[index]?
  untouched : ∀ out, ¬ Admitted metadata → ∃ error, createInto metadata out = (.error error, out)
  phase : ∀ error, create metadata = .error error →
    ∃ phase, error.phase = some phase ∧ RefusedIn metadata phase

/-- `create` admits exactly the metadata that meets the conditions of all its phases. -/
theorem create_contract (metadata : List (Option Json)) : CreateContract metadata := by
  rcases create_cases metadata with ⟨hadmitted, graph, hcreate, _, hpairs⟩ |
    ⟨phase, error, hrefused, hcreate, hphase⟩
  · refine ⟨⟨fun _ => hadmitted, fun _ => ⟨graph, hcreate⟩⟩, ?_, ?_, ?_⟩
    · intro other hother
      obtain rfl : graph = other := by
        rw [hcreate] at hother
        exact Except.ok.inj hother
      rw [← hpairs]
      refine ⟨(length_pairs graph).symm, fun index => ?_⟩
      rw [edgeAt, pairs, List.getElem?_map]
    · exact fun out hrefused => absurd hadmitted hrefused
    · intro error herror
      rw [hcreate] at herror
      cases herror
  · have hnot : ¬ ∃ graph, create metadata = .ok graph := by
      rintro ⟨graph, hok⟩
      rw [hcreate] at hok
      cases hok
    refine ⟨⟨fun hok => absurd hok hnot, fun hadmitted => absurd hadmitted hrefused.not_admitted⟩,
      ?_, ?_, ?_⟩
    · exact fun graph hok => absurd ⟨graph, hok⟩ hnot
    · exact fun out _ => ⟨error, by rw [createInto, hcreate]⟩
    · intro other hother
      rw [hcreate, Except.error.injEq] at hother
      exact ⟨phase, hother ▸ hphase, hrefused⟩

end Dependencies

end Praktor.Workflow
