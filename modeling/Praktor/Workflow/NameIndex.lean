/-
# The name index of a workflow

Phase one of `create` copies the task names and enters each of them into a hash table with
linear probing.  The table has at least twice as many slots as there are tasks, so a search
always ends; and a name is entered where its own search ended, so a later search for it ends
there again.  With this the index is a lookup in the list of names, and phase one succeeds
exactly on non-empty, pairwise distinct names within the byte limit.
-/

import Mathlib.Algebra.Order.Ring.Nat
import Praktor.Math.Probing
import Praktor.Workflow.DependencyOrder

namespace Praktor.Workflow

open Praktor.Data Praktor.Math Praktor.Math.Probing

namespace Dependencies

/-! ## Searching the table -/

/-- The home slot of a name in a table of `count` slots. -/
def homeSlot (count : Nat) (name : Bytes) : Nat := (nameHash name).toNat % count

/-- The names the slots stand for. -/
def slotNames (graph : Dependencies) : List (Option Bytes) :=
  graph.nameSlots.map (Option.map graph.taskName)

@[simp]
theorem length_slotNames (graph : Dependencies) :
    graph.slotNames.length = graph.nameSlots.length := by
  simp [slotNames]

theorem getElem?_slotNames (graph : Dependencies) (slot : Nat) :
    graph.slotNames[slot]? = graph.nameSlots[slot]?.map (Option.map graph.taskName) := by
  simp [slotNames]

/-- The probe loop is a search through the names of the slots. -/
theorem probe_eq_find? {graph : Dependencies}
    (hslots : ∀ task, some task ∈ graph.nameSlots → task < graph.taskCount) (name : Bytes)
    (fuel index : Nat) (hindex : index < graph.nameSlots.length) :
    probe graph name fuel index =
      (probes graph.nameSlots.length index fuel).find? (stops graph.slotNames name) := by
  induction fuel generalizing index with
  | zero => rfl
  | succ fuel ih =>
      have hnext : (index + 1) % graph.nameSlots.length < graph.nameSlots.length :=
        Nat.mod_lt _ (by omega)
      have hslot : graph.nameSlots[index]? = some (graph.nameSlots.get ⟨index, hindex⟩) :=
        List.getElem?_eq_getElem hindex
      generalize graph.nameSlots.get ⟨index, hindex⟩ = slot at hslot
      rw [probe, hslot, probes_succ _ _ _ hindex, List.find?_cons, stops, getElem?_slotNames, hslot]
      cases slot with
      | none => simp
      | some task =>
          have htask : task < graph.tasks.length := hslots task (List.mem_of_getElem? hslot)
          have hentry : graph.tasks[task]? = some (graph.tasks.get ⟨task, htask⟩) :=
            List.getElem?_eq_getElem htask
          generalize graph.tasks.get ⟨task, htask⟩ = entry at hentry
          have htaskName : graph.taskName task = entry.bytes := by simp [taskName, hentry]
          by_cases hname : entry.bytes = name
          · simp [hentry, htaskName, hname]
          · simp [hentry, htaskName, hname, ih _ hnext]

/-- `find_slot` is the search from the home slot. -/
theorem findSlot_eq_locate {graph : Dependencies}
    (hslots : ∀ task, some task ∈ graph.nameSlots → task < graph.taskCount)
    (hpositive : 0 < graph.nameSlots.length) (name : Bytes) :
    findSlot graph name =
      locate graph.slotNames (homeSlot graph.nameSlots.length name) name := by
  rw [findSlot, probe_eq_find? hslots name _ _ (Nat.mod_lt _ hpositive), locate, length_slotNames]
  rfl

/-! ## The index of a list of names -/

/-- The first names of the task table are copied and entered, and every search for one of
them finds it. -/
structure Indexed (graph : Dependencies) (names : List Bytes) : Prop where
  named : ∀ (task : Nat) name, names[task]? = some name →
    graph.tasks[task]?.map DependencyName.bytes = some name
  entered : ∀ task, some task ∈ graph.nameSlots ↔ task < names.length
  filled : graph.nameSlots.countP Option.isSome = names.length
  room : names.length < graph.nameSlots.length
  count_le : names.length ≤ graph.taskCount
  findable : Findable (homeSlot graph.nameSlots.length) graph.slotNames
  nodup : names.Nodup

section Lookup

variable {graph : Dependencies} {names : List Bytes}

theorem Indexed.taskName_eq (hindexed : Indexed graph names) {task : Nat} {name : Bytes}
    (hname : names[task]? = some name) : graph.taskName task = name := by
  rw [taskName, hindexed.named task name hname]
  rfl

theorem Indexed.free (hindexed : Indexed graph names) : none ∈ graph.nameSlots := by
  by_contra hfull
  have hall : graph.nameSlots.countP Option.isSome = graph.nameSlots.length := by
    rw [List.countP_eq_length]
    intro slot hslot
    cases slot with
    | none => exact absurd hslot hfull
    | some task => rfl
  have := hindexed.filled
  have := hindexed.room
  omega

theorem Indexed.findSlot_eq (hindexed : Indexed graph names) (name : Bytes) :
    findSlot graph name = locate graph.slotNames (homeSlot graph.nameSlots.length name) name := by
  apply findSlot_eq_locate
  · intro task hmem
    exact Nat.lt_of_lt_of_le ((hindexed.entered task).mp hmem) hindexed.count_le
  · have := hindexed.room
    omega

/-- The names in the slots are the names of the list. -/
theorem Indexed.mem_slotNames (hindexed : Indexed graph names) {name : Bytes} :
    some name ∈ graph.slotNames ↔ name ∈ names := by
  rw [slotNames, List.mem_map]
  constructor
  · rintro ⟨slot, hslot, hname⟩
    obtain ⟨task, rfl, rfl⟩ := Option.map_eq_some_iff.mp hname
    have htask := (hindexed.entered task).mp hslot
    have hentry := List.getElem?_eq_getElem htask
    rw [hindexed.taskName_eq hentry]
    exact List.getElem_mem htask
  · intro hmem
    obtain ⟨task, hentry⟩ := List.mem_iff_getElem?.mp hmem
    obtain ⟨htask, _⟩ := List.getElem?_eq_some_iff.mp hentry
    exact ⟨some task, (hindexed.entered task).mpr htask, by simp [hindexed.taskName_eq hentry]⟩

/-- A search ends at a free slot when the name is new, and at its task otherwise. -/
theorem Indexed.findSlot_cases (hindexed : Indexed graph names) (name : Bytes) :
    ∃ slot, findSlot graph name = some slot ∧
      (name ∉ names ∧ graph.nameSlots[slot]? = some none ∨
        ∃ task, names[task]? = some name ∧ graph.nameSlots[slot]? = some (some task)) := by
  have hhome : homeSlot graph.nameSlots.length name < graph.slotNames.length := by
    have := hindexed.room
    rw [length_slotNames]
    exact Nat.mod_lt _ (by omega)
  have hfree : none ∈ graph.slotNames := List.mem_map.mpr ⟨none, hindexed.free, rfl⟩
  obtain ⟨slot, hlocate⟩ := @exists_locate _ _ graph.slotNames _ name hhome hfree
  refine ⟨slot, (hindexed.findSlot_eq name).trans hlocate, ?_⟩
  rcases slot_of_locate hlocate with hempty | hfound
  · refine .inl ⟨?_, ?_⟩
    · rw [← hindexed.mem_slotNames]
      exact hindexed.findable.notMem hlocate hempty
    · simpa [getElem?_slotNames] using hempty
  · rw [getElem?_slotNames] at hfound
    obtain ⟨entry, hentry, hname⟩ := Option.map_eq_some_iff.mp hfound
    obtain ⟨task, rfl, rfl⟩ := Option.map_eq_some_iff.mp hname
    have htask := (hindexed.entered task).mp (List.mem_of_getElem? hentry)
    refine .inr ⟨task, ?_, hentry⟩
    rw [hindexed.taskName_eq (List.getElem?_eq_getElem htask)]
    exact List.getElem?_eq_getElem htask

/-- `name_index` is a lookup in the list of names. -/
theorem Indexed.nameIndex_eq (hindexed : Indexed graph names) (name : Bytes) :
    nameIndex graph name = .ok (if name ∈ names then some (names.idxOf name) else none) := by
  obtain ⟨slot, hslot, hcases⟩ := hindexed.findSlot_cases name
  rw [nameIndex, hslot]
  rcases hcases with ⟨habsent, hfree⟩ | ⟨task, hname, hfound⟩
  · simp [hfree, habsent]
  · obtain ⟨htask, hentry⟩ := List.getElem?_eq_some_iff.mp hname
    have hindex : names.idxOf name = task := by
      rw [← hentry]
      exact hindexed.nodup.idxOf_getElem task htask
    simp [hfound, List.mem_of_getElem? hname, hindex]

end Lookup

/-! ## Phase one -/

/-- The names of the tasks that have one. -/
def taskNames (metadata : List (Option Json)) : List Bytes := metadata.filterMap nameOf

/-- The bytes the copies of names take, with their terminators. -/
def nameBytes (names : List Bytes) : Nat := (names.map fun name => name.length + 1).sum

/-- The phases of `create`. -/
inductive Phase
  | arguments
  | names
  | triggers
  | dependencies
  | cycles
  deriving DecidableEq, Repr

end Dependencies

/-- The phase a diagnostic belongs to. -/
def DependencyError.phase : DependencyError → Option Dependencies.Phase
  | .invalidArguments => some .arguments
  | .invalidName => some .names
  | .duplicateName _ => some .names
  | .nameLimit => some .names
  | .invalidTrigger => some .triggers
  | .invalidFinally => some .triggers
  | .unknownTrigger _ _ _ => some .triggers
  | .invalidDependency => some .dependencies
  | .unknownDependency _ _ => some .dependencies
  | .edgeLimit => some .dependencies
  | .cycle => some .cycles
  | .spins => none

namespace Dependencies

/-- What phase one asks of the tasks, after the names `before`. -/
structure NamesAdmitted (before : List Bytes) (metadata : List (Option Json)) : Prop where
  named : ∀ object ∈ metadata, ∃ name, nameOf object = some name ∧ name ≠ []
  nodup : (before ++ taskNames metadata).Nodup
  bytes_le : nameBytes (before ++ taskNames metadata) ≤ maxNameBytes

/-- The table is large enough for twice the tasks. -/
theorem le_slotCount (count fuel slots : Nat) (hfuel : count * 2 ≤ slots * 2 ^ fuel) :
    count * 2 ≤ slotCount count fuel slots := by
  induction fuel generalizing slots with
  | zero =>
      rw [slotCount]
      simpa using hfuel
  | succ fuel ih =>
      rw [slotCount]
      split
      · apply ih
        rw [Nat.mul_assoc, ← Nat.pow_succ']
        exact hfuel
      · omega

theorem slots_pos_of_slotCount (count fuel slots : Nat) (hslots : 0 < slots) :
    0 < slotCount count fuel slots := by
  induction fuel generalizing slots with
  | zero => exact hslots
  | succ fuel ih =>
      rw [slotCount]
      split
      · exact ih _ (by omega)
      · exact hslots

theorem indexed_blank (count : Nat) : Indexed (blank count) [] where
  named task name hname := by simp at hname
  entered task := by simp [blank]
  filled := by simp [blank, List.countP_replicate]
  room := by simpa [blank] using slots_pos_of_slotCount count count 8 (by omega)
  count_le := Nat.zero_le _
  findable := by
    have hblank : (blank count).slotNames =
        List.replicate (blank count).nameSlots.length (none : Option Bytes) := by
      simp [slotNames, blank]
    rw [hblank]
    exact findable_blank _ _
  nodup := List.nodup_nil

section PhaseOne

variable {graph : Dependencies} {names : List Bytes}

theorem withName_taskName (slot : Nat) (name : Bytes) {task index : Nat} (hne : index ≠ task) :
    (graph.withName index slot name).taskName task = graph.taskName task := by
  simp [taskName, withName, hne]

/-- A new name is entered where its search ended. -/
theorem Indexed.withName (hindexed : Indexed graph names) {name : Bytes} {slot : Nat}
    (hnew : name ∉ names) (hslot : findSlot graph name = some slot)
    (hfree : graph.nameSlots[slot]? = some none) (hcount : names.length < graph.taskCount)
    (hroom : names.length + 1 < graph.nameSlots.length) :
    Indexed (graph.withName names.length slot name) (names ++ [name]) := by
  obtain ⟨hlt, hget⟩ := List.getElem?_eq_some_iff.mp hfree
  have hslots : (graph.withName names.length slot name).nameSlots =
      graph.nameSlots.set slot (some names.length) := rfl
  have htask : graph.tasks[names.length]? = some (graph.tasks.get ⟨names.length, hcount⟩) :=
    List.getElem?_eq_getElem hcount
  have hself : (graph.withName names.length slot name).taskName names.length = name := by
    simp [taskName, Dependencies.withName, htask]
  refine ⟨?_, ?_, ?_, ?_, ?_, ?_, ?_⟩
  · intro task other hother
    rcases Nat.lt_or_ge task names.length with hold | hlast
    · rw [List.getElem?_append_left hold] at hother
      have hne : names.length ≠ task := by omega
      simpa [Dependencies.withName, List.getElem?_modify, hne] using
        hindexed.named task other hother
    · rw [List.getElem?_append_right hlast] at hother
      obtain ⟨hzero, rfl⟩ : task - names.length = 0 ∧ name = other := by
        cases hindex : task - names.length with
        | zero => simpa [hindex] using hother
        | succ index => simp [hindex] at hother
      obtain rfl : names.length = task := by omega
      simp [Dependencies.withName, htask]
  · intro task
    rw [hslots, List.length_append, List.length_singleton]
    constructor
    · intro hmem
      rcases List.mem_or_eq_of_mem_set hmem with hold | hequal
      · have := (hindexed.entered task).mp hold
        omega
      · rw [Option.some.injEq] at hequal
        omega
    · intro htaskLt
      rcases Nat.lt_or_ge task names.length with hold | hlast
      · obtain ⟨place, hplace⟩ := List.mem_iff_getElem?.mp ((hindexed.entered task).mpr hold)
        have hne : slot ≠ place := by
          rintro rfl
          rw [hfree] at hplace
          cases hplace
        apply List.mem_of_getElem? (i := place)
        rw [List.getElem?_set_ne hne]
        exact hplace
      · obtain rfl : task = names.length := by omega
        exact List.mem_set hlt _
  · rw [hslots, List.countP_set hlt, hget, hindexed.filled, List.length_append]
    rfl
  · rw [hslots, List.length_set, List.length_append, List.length_singleton]
    exact hroom
  · have hsame : (graph.withName names.length slot name).taskCount = graph.taskCount := by
      simp [taskCount, Dependencies.withName]
    rw [hsame, List.length_append, List.length_singleton]
    exact hcount
  · have hnames : (graph.withName names.length slot name).slotNames =
        graph.slotNames.set slot (some name) := by
      rw [slotNames, hslots, List.map_set, Option.map_some, hself, slotNames]
      congr 1
      apply List.map_congr_left
      intro entry hentry
      cases entry with
      | none => rfl
      | some task =>
          have htaskLt := (hindexed.entered task).mp hentry
          rw [Option.map_some, Option.map_some, withName_taskName _ _ (by omega)]
    rw [hnames, hslots, List.length_set]
    apply hindexed.findable.insert
    · rw [← hindexed.findSlot_eq]
      exact hslot
    · simp [getElem?_slotNames, hfree]
  · rw [List.nodup_append]
    refine ⟨hindexed.nodup, List.nodup_singleton name, ?_⟩
    intro first hfirst second hsecond hequal
    rw [List.mem_singleton] at hsecond
    exact hnew (hsecond ▸ hequal ▸ hfirst)

theorem nameBytes_append (first second : List Bytes) :
    nameBytes (first ++ second) = nameBytes first + nameBytes second := by
  simp [nameBytes]

theorem taskNames_cons {object : Option Json} {name : Bytes} (hname : nameOf object = some name)
    (rest : List (Option Json)) : taskNames (object :: rest) = name :: taskNames rest := by
  simp [taskNames, hname]

/-- With one name more before them, the other tasks face the same conditions. -/
theorem namesAdmitted_cons_iff {object : Option Json} {name : Bytes}
    (hname : nameOf object = some name) (hne : name ≠ []) (rest : List (Option Json)) :
    NamesAdmitted names (object :: rest) ↔ NamesAdmitted (names ++ [name]) rest := by
  have hshift : names ++ taskNames (object :: rest) = names ++ [name] ++ taskNames rest := by
    rw [taskNames_cons hname, List.append_assoc, List.singleton_append]
  constructor
  · rintro ⟨hnamed, hnodup, hbytes⟩
    rw [hshift] at hnodup hbytes
    exact ⟨fun other hmem => hnamed other (List.mem_cons_of_mem _ hmem), hnodup, hbytes⟩
  · rintro ⟨hnamed, hnodup, hbytes⟩
    rw [← hshift] at hnodup hbytes
    refine ⟨fun other hmem => ?_, hnodup, hbytes⟩
    rcases List.mem_cons.mp hmem with rfl | hmem
    · exact ⟨name, hname, hne⟩
    · exact hnamed other hmem

/-- Phase one indexes the names it admits, and fails on all others. -/
theorem copyNames_cases (metadata : List (Option Json)) (hindexed : Indexed graph names)
    (hbytes : nameBytes names ≤ maxNameBytes)
    (hcount : names.length + metadata.length ≤ graph.taskCount)
    (hroom : names.length + metadata.length < graph.nameSlots.length) :
    (NamesAdmitted names metadata ∧ ∃ result,
        copyNames metadata names.length (nameBytes names) graph = .ok result ∧
          Indexed result (names ++ taskNames metadata) ∧ result.edges = graph.edges) ∨
      (¬ NamesAdmitted names metadata ∧ ∃ error,
        copyNames metadata names.length (nameBytes names) graph = .error error ∧
          error.phase = some .names) := by
  induction metadata generalizing graph names with
  | nil =>
      refine .inl ⟨⟨by simp, ?_, ?_⟩, graph, rfl, ?_, rfl⟩
      · simpa [taskNames] using hindexed.nodup
      · simpa [taskNames] using hbytes
      · simpa [taskNames] using hindexed
  | cons object rest ih =>
      simp only [List.length_cons] at hcount hroom
      cases hname : nameOf object with
      | none =>
          refine .inr ⟨fun hadmitted => ?_, .invalidName, by simp [copyNames, hname], rfl⟩
          obtain ⟨name, hsome, _⟩ := hadmitted.named object List.mem_cons_self
          rw [hname] at hsome
          cases hsome
      | some name =>
          by_cases hempty : name = []
          · refine .inr ⟨fun hadmitted => ?_, .invalidName, by simp [copyNames, hname, hempty], rfl⟩
            obtain ⟨other, hsome, hne⟩ := hadmitted.named object List.mem_cons_self
            rw [hname, Option.some.injEq] at hsome
            exact hne (hsome ▸ hempty)
          have hlength : ¬ name.length = 0 := mt List.length_eq_zero_iff.mp hempty
          rw [namesAdmitted_cons_iff hname hempty, taskNames_cons hname]
          obtain ⟨slot, hslot, ⟨hnew, hfree⟩ | ⟨task, hold, hfound⟩⟩ := hindexed.findSlot_cases name
          · have htotal : nameBytes (names ++ [name]) = nameBytes names + (name.length + 1) := by
              simp [nameBytes]
            by_cases hlimit : name.length + 1 > maxNameBytes - nameBytes names
            · refine .inr ⟨fun hadmitted => ?_, .nameLimit, ?_, rfl⟩
              · have hle := hadmitted.bytes_le
                rw [nameBytes_append, htotal] at hle
                omega
              · simp [copyNames, hname, hlength, hslot, hfree, hlimit]
            · have hnext := hindexed.withName hnew hslot hfree (by omega) (by omega)
              have hcopy : copyNames (object :: rest) names.length (nameBytes names) graph =
                  copyNames rest (names ++ [name]).length (nameBytes (names ++ [name]))
                    (graph.withName names.length slot name) := by
                rw [htotal, List.length_append, List.length_singleton]
                simp [copyNames, hname, hlength, hslot, hfree, hlimit, Dependencies.withName]
              have hshift : names ++ name :: taskNames rest = names ++ [name] ++ taskNames rest := by
                simp
              rw [hcopy, hshift]
              apply ih hnext (by omega)
              · rw [List.length_append, List.length_singleton]
                simp only [taskCount, Dependencies.withName, List.length_modify] at hcount ⊢
                omega
              · rw [List.length_append, List.length_singleton]
                simp only [Dependencies.withName, List.length_set]
                omega
          · refine .inr ⟨fun hadmitted => ?_, .duplicateName name, ?_, rfl⟩
            · have hnodup := (List.nodup_append.mp hadmitted.nodup).1
              have happart := (List.nodup_append.mp hnodup).2.2 name (List.mem_of_getElem? hold) name
              exact happart (List.mem_singleton_self name) rfl
            · simp [copyNames, hname, hlength, hslot, hfound]

end PhaseOne

end Dependencies

end Praktor.Workflow
