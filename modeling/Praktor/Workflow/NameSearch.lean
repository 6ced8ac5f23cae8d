/-
# Searching the task names

The source searches its name table with a mask in the place of a remainder.  The table doubles
from eight slots on until it has twice the slots that there are tasks, so the mask is the
remainder; and at most half of its slots are ever taken, so a search always meets a free one.
With this the search is right after any number of names, whatever their hashes are.
-/

import Praktor.Workflow.NameIndex

namespace Praktor.Workflow

open Praktor.Data Praktor.Math Praktor.Math.Probing

namespace Dependencies

/-! ## The search of the source -/

/-- The loop of `find_slot` from a slot on. -/
def probeMasked (graph : Dependencies) (name : Bytes) : Nat → Nat → Option Nat
  | 0, _ => none
  | fuel + 1, index =>
      match graph.nameSlots[index]? with
      | none => none
      | some none => some index
      | some (some task) =>
          if (graph.tasks[task]?.map DependencyName.bytes) = some name then some index
          else probeMasked graph name fuel ((index + 1) &&& (graph.nameSlots.length - 1))

/-- `find_slot` with its masks. -/
def findSlotMasked (graph : Dependencies) (name : Bytes) : Option Nat :=
  probeMasked graph name graph.nameSlots.length
    ((nameHash name).toNat &&& (graph.nameSlots.length - 1))

/-- The number of slots is a power of two. -/
def IsPower (count : Nat) : Prop := ∃ exponent, count = 2 ^ exponent

theorem IsPower.mask {count : Nat} (hpower : IsPower count) (index : Nat) :
    index &&& (count - 1) = index % count := by
  obtain ⟨exponent, rfl⟩ := hpower
  exact Nat.and_two_pow_sub_one_eq_mod index exponent

theorem probeMasked_eq {graph : Dependencies} (hpower : IsPower graph.nameSlots.length)
    (name : Bytes) (fuel index : Nat) :
    probeMasked graph name fuel index = probe graph name fuel index := by
  induction fuel generalizing index with
  | zero => rfl
  | succ fuel ih =>
      simp only [probeMasked, probe, hpower.mask, ih] <;> rfl

/-- On a power of two the masks are remainders. -/
theorem findSlotMasked_eq {graph : Dependencies} (hpower : IsPower graph.nameSlots.length)
    (name : Bytes) : findSlotMasked graph name = findSlot graph name := by
  rw [findSlotMasked, findSlot, probeMasked_eq hpower, hpower.mask]

/-! ## The size of the table -/

theorem slotCount_isPower (count fuel slots : Nat) (hslots : IsPower slots) :
    IsPower (slotCount count fuel slots) := by
  induction fuel generalizing slots with
  | zero => exact hslots
  | succ fuel ih =>
      rw [slotCount]
      split
      · obtain ⟨exponent, rfl⟩ := hslots
        exact ih _ ⟨exponent + 1, rfl⟩
      · exact hslots

theorem blank_isPower (count : Nat) : IsPower (blank count).nameSlots.length := by
  rw [blank, List.length_replicate]
  exact slotCount_isPower count count 8 ⟨3, rfl⟩

/-- The table has two slots for each task. -/
theorem two_mul_le_blank (count : Nat) : 2 * count ≤ (blank count).nameSlots.length := by
  rw [blank, List.length_replicate, Nat.mul_comm]
  apply le_slotCount
  have := @Nat.lt_two_pow_self count
  omega

theorem lt_blank (count : Nat) : count < (blank count).nameSlots.length := by
  have hdouble := two_mul_le_blank count
  have hsome : 0 < (blank count).nameSlots.length := by
    rw [blank, List.length_replicate]
    exact slots_pos_of_slotCount count count 8 (by decide)
  omega

/-- Entering names does not resize the table. -/
theorem copyNames_slots (metadata : List (Option Json)) {index nameBytes : Nat}
    {graph result : Dependencies} (hcopy : copyNames metadata index nameBytes graph = .ok result) :
    result.nameSlots.length = graph.nameSlots.length := by
  induction metadata generalizing index nameBytes graph with
  | nil =>
      rw [copyNames, Except.ok.injEq] at hcopy
      rw [hcopy]
  | cons object rest ih =>
      obtain ⟨name, slot, _, _, _, _, _, hrest⟩ := copyNames_cons_eq_ok hcopy
      rw [ih hrest, withName, List.length_set]

/-! ## The searches -/

/-- The table answers every search rightly for the names of the first tasks. -/
structure SearchesRight (graph : Dependencies) (names : List Bytes) : Prop where
  /-- The first tasks have these names. -/
  named : ∀ (task : Nat) name, names[task]? = some name → graph.taskName task = name
  /-- A search for one of the names ends at the slot of its task. -/
  inserted : ∀ (task : Nat) name, names[task]? = some name →
    ∃ slot, findSlotMasked graph name = some slot ∧ graph.nameSlots[slot]? = some (some task)
  /-- A search for another text ends at an empty slot. -/
  absent : ∀ name, name ∉ names →
    ∃ slot, findSlotMasked graph name = some slot ∧ graph.nameSlots[slot]? = some none
  /-- The index of a text is a task exactly if the text is the name of that task. -/
  index : ∀ name task, nameIndex graph name = .ok (some task) ↔ names[task]? = some name

theorem Indexed.searchesRight {graph : Dependencies} {names : List Bytes}
    (hindexed : Indexed graph names) (hpower : IsPower graph.nameSlots.length) :
    SearchesRight graph names where
  named _ _ hname := hindexed.taskName_eq hname
  inserted task name hname := by
    rw [findSlotMasked_eq hpower]
    obtain ⟨slot, hslot, ⟨hnew, _⟩ | ⟨other, hother, hfound⟩⟩ := hindexed.findSlot_cases name
    · exact absurd (List.mem_of_getElem? hname) hnew
    · obtain ⟨hlt, hentry⟩ := List.getElem?_eq_some_iff.mp hname
      obtain ⟨hotherLt, hotherEntry⟩ := List.getElem?_eq_some_iff.mp hother
      have hsame : other = task :=
        hindexed.nodup.getElem_inj_iff.mp (hotherEntry.trans hentry.symm)
      exact ⟨slot, hslot, hsame ▸ hfound⟩
  absent name hnew := by
    rw [findSlotMasked_eq hpower]
    obtain ⟨slot, hslot, ⟨_, hfree⟩ | ⟨task, hname, _⟩⟩ := hindexed.findSlot_cases name
    · exact ⟨slot, hslot, hfree⟩
    · exact absurd (List.mem_of_getElem? hname) hnew
  index name task := by
    rw [hindexed.nameIndex_eq, Except.ok.injEq]
    constructor
    · intro hindex
      split at hindex
      next hmem =>
        rw [Option.some.injEq] at hindex
        rw [← hindex]
        exact List.getElem?_idxOf hmem
      next => cases hindex
    · intro hname
      obtain ⟨hlt, hentry⟩ := List.getElem?_eq_some_iff.mp hname
      rw [if_pos (List.mem_of_getElem? hname), ← hentry, hindexed.nodup.idxOf_getElem task hlt]

/-- **The task-name index is correct.**  The table is a power of two with two slots for each task.
After the names of any number of tasks, phase one has either refused a name, and no search has run
around the table, or the table answers every search rightly. -/
theorem name_index_correct (metadata : List (Option Json)) (inserted : Nat) :
    (IsPower (blank metadata.length).nameSlots.length ∧
      2 * metadata.length ≤ (blank metadata.length).nameSlots.length) ∧
    ((∃ error, copyNames (metadata.take inserted) 0 0 (blank metadata.length) = .error error ∧
        error.phase = some .names) ∨
      ∃ graph, copyNames (metadata.take inserted) 0 0 (blank metadata.length) = .ok graph ∧
        (taskNames (metadata.take inserted)).length = min inserted metadata.length ∧
        SearchesRight graph (taskNames (metadata.take inserted))) := by
  refine ⟨⟨blank_isPower _, two_mul_le_blank _⟩, ?_⟩
  have hcount : (metadata.take inserted).length ≤ metadata.length := by
    rw [List.length_take]
    omega
  have hslots := lt_blank metadata.length
  obtain ⟨hadmitted, graph, hcopy, hindexed, _⟩ | ⟨_, error, hcopy, hphase⟩ :=
    copyNames_cases (metadata.take inserted) (indexed_blank metadata.length) (Nat.zero_le _)
      (by simp [taskCount, blank]) (by rw [List.length_nil]; omega)
  · have hpower : IsPower graph.nameSlots.length := by
      rw [copyNames_slots _ hcopy]
      exact blank_isPower _
    refine .inr ⟨graph, hcopy, ?_, hindexed.searchesRight hpower⟩
    rw [taskNames, List.length_filterMap_eq_countP, List.countP_eq_length.mpr, List.length_take]
    intro object hobject
    obtain ⟨name, hname, _⟩ := hadmitted.named object hobject
    rw [hname, Option.isSome_some]
  · exact .inl ⟨error, hcopy, hphase⟩

end Dependencies

end Praktor.Workflow
