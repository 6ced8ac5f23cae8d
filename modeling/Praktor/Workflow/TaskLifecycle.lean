/-
# The lifecycle of a task

A task that has ended keeps its state, its outputs and its reason until it is started
again, and whatever outputs it holds are bounded.  Both are facts about every call in every
order, so they follow from what one call may do to a slot.

The budget of `admissible_json` is spent while the document is read.  `admitted_iff` says
what that comes to: a bound on the depth, the nodes and the bytes of the document.
-/

import Praktor.Workflow.DagSafety
import Praktor.Workflow.ParallelCommit
import Praktor.Workflow.RegistryRun

namespace Praktor.Workflow

open Praktor.Data Praktor.Math

/-! ## What a budget admits -/

/-- The size of a document: its depth, its nodes and its logical bytes. -/
structure JsonSize where
  depth : Nat
  nodes : Nat
  bytes : Nat
  deriving DecidableEq, Repr

namespace JsonSize

/-- A leaf of some bytes. -/
def leaf (bytes : Nat) : JsonSize := ⟨1, 1, bytes⟩

/-- Nothing. -/
def zero : JsonSize := ⟨0, 0, 0⟩

/-- Two documents side by side. -/
def beside (first second : JsonSize) : JsonSize :=
  ⟨max first.depth second.depth, first.nodes + second.nodes, first.bytes + second.bytes⟩

/-- A node above what it holds. -/
def above (inner : JsonSize) : JsonSize := ⟨inner.depth + 1, inner.nodes + 1, inner.bytes⟩

/-- The key of a member counts as bytes. -/
def keyed (key : Bytes) (inner : JsonSize) : JsonSize := { inner with bytes := key.length + inner.bytes }

end JsonSize

mutual

/-- The size of a document. -/
def jsonSize : Json → JsonSize
  | .null => .leaf 1
  | .bool _ => .leaf 1
  | .number value => .leaf value.tokenLength
  | .string text => .leaf text.length
  | .array items => (itemsSize items).above
  | .object members => (membersSize members).above

/-- The size of the items of an array. -/
def itemsSize : List Json → JsonSize
  | [] => .zero
  | item :: rest => (jsonSize item).beside (itemsSize rest)

/-- The size of the members of an object. -/
def membersSize : List (Bytes × Json) → JsonSize
  | [] => .zero
  | (key, value) :: rest => ((jsonSize value).keyed key).beside (membersSize rest)

end

/-- The budget that is left behind by something of this size, if it fits. -/
def JsonBudget.spend (levels : Nat) (budget : JsonBudget) (size : JsonSize) : Option JsonBudget :=
  if size.depth ≤ levels ∧ budget.nodes + size.nodes ≤ maxJsonNodes ∧
      budget.bytes + size.bytes ≤ maxJsonBytes then
    some ⟨budget.nodes + size.nodes, budget.bytes + size.bytes⟩
  else none

/-- A budget that has not been overdrawn. -/
def JsonBudget.Solvent (budget : JsonBudget) : Prop :=
  budget.nodes ≤ maxJsonNodes ∧ budget.bytes ≤ maxJsonBytes

theorem JsonBudget.take_eq {budget : JsonBudget} (hsolvent : budget.Solvent) (bytes : Nat) :
    budget.take bytes = budget.spend 0 ⟨0, 0, bytes⟩ := by
  obtain ⟨hnodes, hbytes⟩ := hsolvent
  simp only [take, spend, Nat.le_refl, true_and, Nat.add_zero, hnodes]
  by_cases hfits : budget.bytes + bytes ≤ maxJsonBytes
  · rw [if_neg (by omega), if_pos hfits]
  · rw [if_pos (by omega), if_neg hfits]

/-- What was spent leaves a solvent budget. -/
theorem JsonBudget.solvent_of_spend {levels : Nat} {budget next : JsonBudget} {size : JsonSize}
    (hspend : budget.spend levels size = some next) : next.Solvent := by
  rw [spend] at hspend
  split_ifs at hspend with hfits
  rw [← Option.some.inj hspend]
  exact hfits.2

/-- Spending twice is spending once for both. -/
theorem JsonBudget.spend_bind (levels : Nat) (budget : JsonBudget) (first second : JsonSize) :
    (budget.spend levels first).bind (fun next => next.spend levels second) =
      budget.spend levels (first.beside second) := by
  by_cases hfirst : first.depth ≤ levels ∧ budget.nodes + first.nodes ≤ maxJsonNodes ∧
      budget.bytes + first.bytes ≤ maxJsonBytes
  · simp only [spend, JsonSize.beside, hfirst, and_self, if_true, Option.bind_some, Nat.add_assoc,
      Nat.max_le, true_and]
  · rw [spend, if_neg hfirst, Option.bind_none, spend, if_neg]
    rintro ⟨hdepth, hnodes, hbytes⟩
    simp only [JsonSize.beside] at hdepth hnodes hbytes
    exact hfirst ⟨by omega, by omega, by omega⟩

/-- A key is paid for before its value. -/
theorem JsonBudget.spend_keyed {budget : JsonBudget} (hsolvent : budget.Solvent) (levels : Nat)
    (key : Bytes) (size : JsonSize) :
    (budget.spend 0 ⟨0, 0, key.length⟩).bind (fun next => next.spend levels size) =
      budget.spend levels (size.keyed key) := by
  by_cases hkey : budget.bytes + key.length ≤ maxJsonBytes
  · simp only [spend, JsonSize.keyed, Nat.le_refl, Nat.add_zero, hsolvent.1, hkey, and_self, if_true,
      Option.bind_some, Nat.add_assoc]
    rfl
  · rw [spend, if_neg fun hfits => hkey hfits.2.2, Option.bind_none, spend, if_neg]
    rintro ⟨_, _, hbytes⟩
    simp only [JsonSize.keyed] at hbytes
    omega

section Admission

variable {levels : Nat}

theorem foldlM_items (hnode : ∀ node budget, budget.Solvent →
      admissibleJson levels node budget = budget.spend levels (jsonSize node))
    (items : List Json) (budget : JsonBudget) (hsolvent : budget.Solvent) :
    items.foldlM (fun budget item => admissibleJson levels item budget) budget =
      budget.spend levels (itemsSize items) := by
  induction items generalizing budget with
  | nil => simp [itemsSize, JsonBudget.spend, JsonSize.zero, hsolvent.1, hsolvent.2]
  | cons item rest ih =>
      rw [List.foldlM_cons, hnode item budget hsolvent, itemsSize, ← JsonBudget.spend_bind]
      cases hspend : budget.spend levels (jsonSize item) with
      | none => rfl
      | some next => exact ih next (JsonBudget.solvent_of_spend hspend)

theorem foldlM_members (hnode : ∀ node budget, budget.Solvent →
      admissibleJson levels node budget = budget.spend levels (jsonSize node))
    (members : List (Bytes × Json)) (budget : JsonBudget) (hsolvent : budget.Solvent) :
    members.foldlM (fun budget member =>
        (budget.take member.1.length).bind (admissibleJson levels member.2)) budget =
      budget.spend levels (membersSize members) := by
  induction members generalizing budget with
  | nil => simp [membersSize, JsonBudget.spend, JsonSize.zero, hsolvent.1, hsolvent.2]
  | cons member rest ih =>
      obtain ⟨key, value⟩ := member
      have hmember : (budget.take key.length).bind (admissibleJson levels value) =
          budget.spend levels ((jsonSize value).keyed key) := by
        rw [JsonBudget.take_eq hsolvent, ← JsonBudget.spend_keyed hsolvent]
        cases hspend : budget.spend 0 ⟨0, 0, key.length⟩ with
        | none => rfl
        | some next => exact hnode value next (JsonBudget.solvent_of_spend hspend)
      rw [List.foldlM_cons, hmember, membersSize, ← JsonBudget.spend_bind]
      cases hspend : budget.spend levels ((jsonSize value).keyed key) with
      | none => rfl
      | some next => exact ih next (JsonBudget.solvent_of_spend hspend)

end Admission

/-- `admissible_json` spends the size of the document. -/
theorem admissibleJson_eq (levels : Nat) (node : Json) (budget : JsonBudget)
    (hsolvent : budget.Solvent) :
    admissibleJson levels node budget = budget.spend levels (jsonSize node) := by
  induction levels generalizing node budget with
  | zero =>
      have hdepth : ¬ (jsonSize node).depth ≤ 0 := by
        cases node <;> simp [jsonSize, JsonSize.leaf, JsonSize.above]
      rw [admissibleJson, JsonBudget.spend, if_neg fun hfits => hdepth hfits.1]
  | succ levels ih =>
      rw [admissibleJson.eq_def]
      simp only
      by_cases hnodes : budget.nodes + 1 > maxJsonNodes
      · have hcount : 1 ≤ (jsonSize node).nodes := by
          cases node <;> simp [jsonSize, JsonSize.leaf, JsonSize.above]
        rw [if_pos hnodes, JsonBudget.spend, if_neg (by omega)]
      · rw [if_neg hnodes]
        have hnext : JsonBudget.Solvent { budget with nodes := budget.nodes + 1 } :=
          ⟨by simp only; omega, hsolvent.2⟩
        have hleaf (bytes : Nat) : JsonBudget.take { budget with nodes := budget.nodes + 1 } bytes =
            budget.spend (levels + 1) (.leaf bytes) := by
          rw [JsonBudget.take_eq hnext]
          simp only [JsonBudget.spend, JsonSize.leaf, Nat.add_zero, Nat.le_refl, true_and,
            Nat.le_add_left]
        have habove (inner : JsonSize) :
            JsonBudget.spend levels { budget with nodes := budget.nodes + 1 } inner =
              budget.spend (levels + 1) inner.above := by
          simp only [JsonBudget.spend, JsonSize.above, Nat.add_le_add_iff_right, Nat.add_assoc,
            Nat.add_comm 1]
        cases node with
        | null => exact hleaf 1
        | bool value => exact hleaf 1
        | number token => exact hleaf _
        | string text => exact hleaf _
        | array items =>
            rw [jsonSize, ← habove]
            exact foldlM_items ih items _ hnext
        | object members =>
            rw [jsonSize, ← habove]
            exact foldlM_members ih members _ hnext

/-- A document passes `admissible_json` exactly when its size is within the limits. -/
theorem admitted_iff (document : Json) :
    admitted document = true ↔ (jsonSize document).depth ≤ maxJsonDepth ∧
      (jsonSize document).nodes ≤ maxJsonNodes ∧ (jsonSize document).bytes ≤ maxJsonBytes := by
  have hsolvent : JsonBudget.Solvent ⟨0, 0⟩ := ⟨Nat.zero_le _, Nat.zero_le _⟩
  rw [admitted, admissibleJson_eq _ _ _ hsolvent, JsonBudget.spend]
  simp only [Nat.zero_add]
  split_ifs with hfits
  · simpa using hfits
  · simpa using hfits

/-! ## Whole runs -/

namespace RegistryWorld

open TaskRegistry

variable {library : JsonLibrary} {world : RegistryWorld}

/-- Every retained output object has passed the last checks. -/
def OutputsChecked (world : RegistryWorld) : Prop :=
  ∀ index slot outputs, world.slot index = some slot → slot.outputs = some outputs →
    stageChecked outputs = true

theorem OutputsChecked.step (hchecked : world.OutputsChecked) (hsound : world.GroupsSound)
    (library : JsonLibrary) (request : RegistryRequest) :
    (world.step library request).1.OutputsChecked := by
  intro index slot outputs hslot houtputs
  have hspec := step_spec library hsound request
  by_cases hindex : index ∈ world.changes request
  · by_cases hok : (world.step library request).2 = .ok
    · obtain ⟨before, next, hbefore, hnext, hchange⟩ := hspec.changed hok index hindex
      obtain rfl : next = slot := by simpa [hnext] using hslot
      rcases hchange.outputs_checked outputs houtputs with hold | hnew
      · exact hchecked index before outputs hbefore hold
      · exact hnew
    · rw [hspec.refused hok] at hslot
      exact hchecked index slot outputs hslot houtputs
  · rw [hspec.kept index hindex] at hslot
    exact hchecked index slot outputs hslot houtputs

/-- The event that a task is started. -/
def Started (index : Nat) (_ : RegistryWorld) (request : RegistryRequest) (status : Salts) : Prop :=
  request = .start index ∧ status = .ok

/-- A call other than a start of the task leaves a final task alone. -/
theorem step_final (hsound : world.GroupsSound) {index : Nat} {slot : TaskSlot}
    (hslot : world.slot index = some slot) (hfinal : slot.state.finalized = true)
    {request : RegistryRequest}
    (hquiet : ¬ Started index world request (world.step library request).2) :
    (world.step library request).1.slot index = some slot := by
  have hspec := step_spec library hsound request
  by_cases hindex : index ∈ world.changes request
  · by_cases hok : (world.step library request).2 = .ok
    · obtain ⟨found, next, hfound, _, hchange⟩ := hspec.changed hok index hindex
      obtain rfl : slot = found := by simpa [hslot] using hfound
      cases hrestarts : request.restarts with
      | false => simp [hchange.not_final hrestarts] at hfinal
      | true =>
          cases request with
          | start other =>
              obtain rfl : index = other := by simpa [changes] using hindex
              exact absurd ⟨rfl, hok⟩ hquiet
          | _ => simp [RegistryRequest.restarts] at hrestarts
    · rw [hspec.refused hok, hslot]
  · rw [hspec.kept index hindex, hslot]

/-- What holds of a registry whatever has been called so far. -/
structure Lifecycle (library : JsonLibrary) (world : RegistryWorld) : Prop where
  final_kept : ∀ index slot, world.slot index = some slot → slot.state.finalized = true →
    ∀ requests, ¬ occurs (RegistryWorld.step library) (Started index) world requests →
      (drive (RegistryWorld.step library) world requests).slot index = some slot
  start_clears : ∀ index, (world.step library (.start index)).2 = .ok →
    ∃ next, (world.step library (.start index)).1.slot index = some next ∧
      next.state = .running ∧ next.outputs = none ∧ next.reason = none
  outputs_bounded : ∀ index slot outputs, world.slot index = some slot →
    slot.outputs = some outputs → outputs.members.length ≤ 128 ∧
      admitted (.object outputs.members) = true ∧
      (jsonSize (.object outputs.members)).depth ≤ 64 ∧
      (jsonSize (.object outputs.members)).nodes ≤ 4096 ∧
      (jsonSize (.object outputs.members)).bytes ≤ 1048576
  revised : ∀ request, (world.step library request).2 = .ok → ∀ index,
    (world.step library request).1.slot index ≠ world.slot index → ∃ slot next,
      world.slot index = some slot ∧ (world.step library request).1.slot index = some next ∧
        next.revision.toNat = slot.revision.toNat + 1
  others_kept : ∀ request index, index ∉ world.changes request →
    (world.step library request).1.slot index = world.slot index
  refused : ∀ request, (world.step library request).2 ≠ .ok →
    (world.step library request).1 = world
  output_hidden : ∀ index key value, world.registry.getOutput index key = .ok value →
    ∃ slot, world.slot index = some slot ∧ (slot.state = .success ∨ slot.state = .failed)
  outputs_hidden : ∀ index members, world.registry.getOutputs index = .ok members →
    ∃ slot, world.slot index = some slot ∧ (slot.state = .success ∨ slot.state = .failed)

theorem readable_iff {slot : TaskSlot} :
    readable slot = true ↔ slot.state = .success ∨ slot.state = .failed := by
  simp [readable]

theorem getOutput_readable {registry : TaskRegistry} {index : Nat} {key : Bytes} {value : Json}
    (hread : registry.getOutput index key = .ok value) :
    ∃ slot, registry.slots[index]? = some slot ∧ readable slot = true := by
  rw [getOutput] at hread
  split_ifs at hread
  split at hread
  · simp at hread
  rename_i slot hslot
  split_ifs at hread with hreadable
  exact ⟨slot, hslot, by simpa using hreadable⟩

theorem getOutputs_readable {registry : TaskRegistry} {index : Nat}
    {members : List (Bytes × Json)} (hread : registry.getOutputs index = .ok members) :
    ∃ slot, registry.slots[index]? = some slot ∧ readable slot = true := by
  rw [getOutputs] at hread
  split at hread
  · simp at hread
  rename_i slot hslot
  split_ifs at hread with hreadable
  exact ⟨slot, hslot, by simpa using hreadable⟩

/-- Sound groups and checked outputs make a lifecycle. -/
theorem Lifecycle.of_sound (library : JsonLibrary) (hsound : world.GroupsSound)
    (hchecked : world.OutputsChecked) : Lifecycle library world where
  final_kept index slot hslot hfinal requests hquiet := by
    refine (drive_of_not_occurs (fun world => world.GroupsSound ∧ world.slot index = some slot)
      ?_ requests hquiet ⟨hsound, hslot⟩).2
    rintro world request ⟨hsound, hslot⟩ hother
    exact ⟨hsound.step library request, step_final hsound hslot hfinal hother⟩
  start_clears index hok := by
    obtain ⟨_, next, _, hnext, hchange⟩ :=
      (step_spec library hsound (.start index)).changed hok index (by simp [changes])
    exact ⟨next, hnext, hchange.cleared rfl⟩
  outputs_bounded index slot outputs hslot houtputs := by
    have hpassed := hchecked index slot outputs hslot houtputs
    simp only [stageChecked, Bool.and_eq_true, Bool.not_eq_true', decide_eq_false_iff_not,
      Nat.not_lt] at hpassed
    exact ⟨hpassed.1, hpassed.2, (admitted_iff _).mp hpassed.2⟩
  revised request hok index hchanged := by
    have hspec := step_spec library hsound request
    have hindex : index ∈ world.changes request := by
      by_contra hother
      exact hchanged (hspec.kept index hother)
    obtain ⟨slot, next, hslot, hnext, hchange⟩ := hspec.changed hok index hindex
    exact ⟨slot, next, hslot, hnext, hchange.revision_eq⟩
  others_kept request := (step_spec library hsound request).kept
  refused request := (step_spec library hsound request).refused
  output_hidden index key value hread := by
    obtain ⟨slot, hslot, hreadable⟩ := getOutput_readable hread
    exact ⟨slot, hslot, readable_iff.mp hreadable⟩
  outputs_hidden index members hread := by
    obtain ⟨slot, hslot, hreadable⟩ := getOutputs_readable hread
    exact ⟨slot, hslot, readable_iff.mp hreadable⟩

/-- After every sequence of calls on a new registry the tasks are in their lifecycle. -/
theorem run_lifecycle (library : JsonLibrary) {graph : Dependencies}
    {schedule rest : AllocSchedule} {registry : TaskRegistry}
    (hcreate : create graph schedule = (.ok registry, rest)) (requests : List RegistryRequest) :
    Lifecycle library (drive (RegistryWorld.step library) (fresh registry) requests) := by
  have hchecked : (fresh registry).OutputsChecked := by
    intro index slot outputs hslot houtputs
    have hmem := List.mem_of_getElem? hslot
    rw [fresh, create_ok hcreate] at hmem
    obtain ⟨task, _, rfl⟩ := List.mem_map.mp hmem
    simp at houtputs
  obtain ⟨hsound, hchecked⟩ := drive_invariant
    (fun world : RegistryWorld => world.GroupsSound ∧ world.OutputsChecked)
    (fun world request hworld =>
      ⟨hworld.1.step library request, hworld.2.step hworld.1 library request⟩)
    requests ⟨groupsSound_fresh registry, hchecked⟩
  exact .of_sound library hsound hchecked

/-! ## Two tasks and a group -/

/-- The registry of the two tasks of `doubledGraph`. -/
def doubledRegistry : TaskRegistry :=
  ⟨[⟨ascii "a", .pending, none, none, 0⟩, ⟨ascii "b", .pending, none, none, 0⟩]⟩

theorem create_doubledGraph : create DagState.doubledGraph [] = (.ok doubledRegistry, []) := by rfl

/-- Start both tasks and prepare an output of each of them as one group. -/
def groupedRequests : List RegistryRequest :=
  [.start 0, .start 1, .prepare 0 [⟨0, some (.object [(ascii "code", .null)])⟩,
    ⟨1, some (.object [(ascii "code", .null)])⟩] []]

theorem run_lifecycle_grouped :
    create DagState.doubledGraph [] = (.ok doubledRegistry, []) ∧
      Lifecycle inPlace (drive (RegistryWorld.step inPlace) (fresh doubledRegistry)
        groupedRequests) :=
  ⟨create_doubledGraph, run_lifecycle inPlace create_doubledGraph groupedRequests⟩

/-- The publication of a group changes more than one task. -/
theorem publish_changes_two :
    create DagState.doubledGraph [] = (.ok doubledRegistry, []) ∧
      ∃ world, world = drive (RegistryWorld.step inPlace) (fresh doubledRegistry) groupedRequests ∧
        (world.step inPlace (.publish 0)).2 = .ok ∧
        (world.step inPlace (.publish 0)).1.slot 0 ≠ world.slot 0 ∧
        (world.step inPlace (.publish 0)).1.slot 1 ≠ world.slot 1 := by
  refine ⟨create_doubledGraph, _, rfl, by decide +kernel, fun hsame => ?_, fun hsame => ?_⟩
  · exact absurd (congrArg (Option.map TaskSlot.revision) hsame) (by decide +kernel)
  · exact absurd (congrArg (Option.map TaskSlot.revision) hsame) (by decide +kernel)

end RegistryWorld

end Praktor.Workflow
