/-
# The task registry over whole runs

A driver calls the registry in any order, with any arguments, and keeps the groups it has
prepared under handles of its own.  `StepSpec` says once what a call can do: a refused call
changes nothing, an accepted one changes exactly the tasks listed by `changes`, and every
change of a slot is a `SlotChange`.  The lifecycle of a task follows from that.

A prepared group is only a note about the registry.  What makes it safe to publish later is
that its entries were staged for open tasks, name no task twice and saw revisions that have
not grown smaller since.
-/

import Praktor.Math.Run
import Praktor.Workflow.TaskRegistry

namespace Praktor.Workflow

open Praktor.Data Praktor.Math

/-- A registry with the groups that have been prepared and not been published yet. -/
structure RegistryWorld where
  registry : TaskRegistry
  groups : Nat → Option (List StagedOutputEntry)

/-- The calls of a driver.  A group lives in the variable `handle` of the driver. -/
inductive RegistryRequest
  | start (index : Nat)
  | complete (index : Nat)
  | skip (index : Nat)
  | fail (index : Nat) (reason : Bytes) (schedule : AllocSchedule)
  | setOutput (index : Nat) (key : Bytes) (value : Json) (schedule : AllocSchedule)
  | mergeOutputs (index : Nat) (updates : Option Json) (schedule : AllocSchedule)
  | prepare (handle : Nat) (updates : List TaskOutputUpdate) (schedule : AllocSchedule)
  | publish (handle : Nat)
  | discard (handle : Nat)

namespace RegistryRequest

/-- The call replaces or gives up the group in `handle`. -/
def Releases (handle : Nat) : RegistryRequest → Prop
  | .prepare other _ _ => other = handle
  | .publish other => other = handle
  | .discard other => other = handle
  | _ => False

instance (handle : Nat) : (request : RegistryRequest) → Decidable (request.Releases handle)
  | .prepare other _ _ => inferInstanceAs (Decidable (other = handle))
  | .publish other => inferInstanceAs (Decidable (other = handle))
  | .discard other => inferInstanceAs (Decidable (other = handle))
  | .start _ | .complete _ | .skip _ | .fail _ _ _ | .setOutput _ _ _ _ | .mergeOutputs _ _ _ =>
      instDecidableFalse

/-- Whether the call starts a task anew. -/
def restarts : RegistryRequest → Bool
  | .start _ => true
  | _ => false

end RegistryRequest

namespace RegistryWorld

/-- A registry without prepared groups. -/
def fresh (registry : TaskRegistry) : RegistryWorld := ⟨registry, fun _ => none⟩

/-- The slot of a task. -/
def slot (world : RegistryWorld) (index : Nat) : Option TaskSlot := world.registry.slots[index]?

/-- One call with its status. -/
def step (library : JsonLibrary) (world : RegistryWorld) :
    RegistryRequest → RegistryWorld × Salts
  | .start index =>
      let (registry, status) := world.registry.start index
      ({ world with registry := registry }, status)
  | .complete index =>
      let (registry, status) := world.registry.complete index
      ({ world with registry := registry }, status)
  | .skip index =>
      let (registry, status) := world.registry.skip index
      ({ world with registry := registry }, status)
  | .fail index reason schedule =>
      let (registry, status, _) := world.registry.fail index reason schedule
      ({ world with registry := registry }, status)
  | .setOutput index key value schedule =>
      let (registry, status, _) := world.registry.setOutput library index key value schedule
      ({ world with registry := registry }, status)
  | .mergeOutputs index updates schedule =>
      let (registry, status, _) := world.registry.mergeOutputs library index updates schedule
      ({ world with registry := registry }, status)
  | .prepare handle updates schedule =>
      match world.registry.prepareOutputGroup library updates schedule with
      | (.error status, _) => (world, status)
      | (.ok group, _) => ({ world with groups := Function.update world.groups handle (some group) }, .ok)
  | .publish handle =>
      match world.groups handle with
      | none => (world, .einval)
      | some group =>
          match world.registry.publishOutputGroup group with
          | (registry, .ok) => (⟨registry, Function.update world.groups handle none⟩, .ok)
          | (registry, status) => ({ world with registry := registry }, status)
  | .discard handle => ({ world with groups := Function.update world.groups handle none }, .ok)

/-- The tasks a group changes: those with a staged object. -/
def groupChanges (group : List StagedOutputEntry) : List Nat :=
  (group.filter fun entry => entry.staged.isSome).map StagedOutputEntry.index

/-- The tasks a call changes if it is accepted. -/
def changes (world : RegistryWorld) : RegistryRequest → List Nat
  | .start index => [index]
  | .complete index => [index]
  | .skip index => [index]
  | .fail index _ _ => [index]
  | .setOutput index _ _ _ => [index]
  | .mergeOutputs index updates _ =>
      match updates with
      | some (.object []) => []
      | _ => [index]
  | .prepare _ _ _ => []
  | .publish handle => groupChanges ((world.groups handle).getD [])
  | .discard _ => []

end RegistryWorld

/-! ## One slot -/

/-- How a call may change a slot.  Only a start touches a final task, and it clears the
task; a new output object has passed the last checks. -/
structure SlotChange (restarts : Bool) (slot next : TaskSlot) : Prop where
  name_eq : next.name = slot.name
  revision_eq : next.revision.toNat = slot.revision.toNat + 1
  not_final : restarts = false → slot.state.finalized = false
  cleared : restarts = true →
    next.state = .running ∧ next.outputs = none ∧ next.reason = none
  outputs_checked : ∀ outputs, next.outputs = some outputs →
    slot.outputs = some outputs ∨ TaskRegistry.stageChecked outputs = true

theorem TaskSlot.closed_eq_false_iff {slot : TaskSlot} :
    slot.closed = false ↔ slot.state.finalized = false ∧ slot.revisionAvailable = true := by
  simp [closed]

theorem SlotChange.publish {slot : TaskSlot} {staged : TaskOutputs} (hopen : slot.closed = false)
    (hchecked : TaskRegistry.stageChecked staged = true) :
    SlotChange false slot (slot.publish staged) := by
  obtain ⟨hfinal, hrevision⟩ := TaskSlot.closed_eq_false_iff.mp hopen
  refine ⟨rfl, slot.toNat_succ_revision hrevision, fun _ => hfinal, by simp, fun outputs h => ?_⟩
  exact .inr (Option.some.inj h ▸ hchecked)

namespace TaskRegistry

variable {library : JsonLibrary} {registry : TaskRegistry}

/-- What a call about one task leaves behind. -/
inductive SlotOutcome (registry : TaskRegistry) (index : Nat) (restarts : Bool) :
    TaskRegistry → Salts → Prop
  | refused (status : Salts) (hstatus : status ≠ .ok) :
      SlotOutcome registry index restarts registry status
  | changed (slot next : TaskSlot) (hslot : registry.slots[index]? = some slot)
      (hchange : SlotChange restarts slot next) :
      SlotOutcome registry index restarts (registry.withSlot index next) .ok

theorem start_outcome (registry : TaskRegistry) (index : Nat) :
    SlotOutcome registry index true (registry.start index).1 (registry.start index).2 := by
  rw [start]
  split
  · exact .refused _ (by simp)
  rename_i slot hslot
  split
  · rename_i hrevision
    exact .changed slot _ hslot ⟨rfl, slot.toNat_succ_revision hrevision, by simp,
      fun _ => ⟨rfl, rfl, rfl⟩, by simp⟩
  · exact .refused _ (by simp)

theorem conclude_outcome (final : TaskState) (registry : TaskRegistry) (index : Nat) :
    SlotOutcome registry index false (conclude final registry index).1
      (conclude final registry index).2 := by
  rw [conclude]
  split
  · exact .refused _ (by simp)
  rename_i slot hslot
  split
  · exact .refused _ (by simp)
  rename_i hopen
  obtain ⟨hfinal, hrevision⟩ := TaskSlot.closed_eq_false_iff.mp (by simpa using hopen)
  exact .changed slot _ hslot ⟨rfl, slot.toNat_succ_revision hrevision, fun _ => hfinal, by simp,
    fun _ => .inl⟩

theorem fail_outcome (registry : TaskRegistry) (index : Nat) (reason : Bytes)
    (schedule : AllocSchedule) :
    SlotOutcome registry index false (registry.fail index reason schedule).1
      (registry.fail index reason schedule).2.1 := by
  rw [fail]
  split
  · exact .refused _ (by simp)
  rename_i slot hslot
  split
  · exact .refused _ (by simp)
  rename_i hopen
  split
  · exact .refused _ (by simp)
  split
  · exact .refused _ (by simp)
  obtain ⟨hfinal, hrevision⟩ := TaskSlot.closed_eq_false_iff.mp (by simpa using hopen)
  exact .changed slot _ hslot ⟨rfl, slot.toNat_succ_revision hrevision, fun _ => hfinal, by simp,
    fun _ => .inl⟩

theorem stageMember_ne (library : JsonLibrary) (staged : TaskOutputs) (key : Bytes) (value : Json)
    (schedule : AllocSchedule) :
    (stageMember library staged key value schedule).1 ≠ .error .ok := by
  simp only [stageMember]
  split
  · simp
  split <;> simp

theorem setOutput_outcome (registry : TaskRegistry) (index : Nat) (key : Bytes) (value : Json)
    (schedule : AllocSchedule) :
    SlotOutcome registry index false (registry.setOutput library index key value schedule).1
      (registry.setOutput library index key value schedule).2.1 := by
  rw [setOutput]
  split
  · exact .refused _ (by simp)
  split
  · exact .refused _ (by simp)
  rename_i slot hslot
  split
  · exact .refused _ (by simp)
  rename_i hopen
  split
  · exact .refused _ (by simp)
  split
  · exact .refused _ (by simp)
  split
  · exact .refused _ (by simp)
  rename_i base rest _
  have hne := stageMember_ne library base key value rest
  split
  · rename_i hrefused
    rw [hrefused] at hne
    exact .refused _ (by simpa using hne)
  split
  · rename_i hchecked
    exact .changed slot _ hslot (.publish (by simpa using hopen) hchecked)
  · exact .refused _ (by simp)

/-- A staged object has passed the last checks. -/
theorem stageOutputUpdate_checked {slot : TaskSlot} {updates : Option Json}
    {schedule rest : AllocSchedule} {staged : TaskOutputs}
    (hok : stageOutputUpdate library slot updates schedule = (.ok (some staged), rest)) :
    stageChecked staged = true := by
  rw [stageOutputUpdate.eq_def] at hok
  split at hok
  · split at hok
    · simp at hok
    split at hok
    · simp at hok
    split at hok
    · simp at hok
    split at hok
    · simp at hok
    split at hok
    · rename_i hchecked
      obtain ⟨rfl, _⟩ := by simpa using hok
      exact hchecked
    · simp at hok
  · simp at hok

/-- An empty update is accepted without a change; any other one is a call about one task. -/
theorem mergeOutputs_outcome (registry : TaskRegistry) (index : Nat) (updates : Option Json)
    (schedule : AllocSchedule) :
    ((registry.mergeOutputs library index updates schedule).1 = registry ∧
        updates = some (.object [])) ∨
      (updates ≠ some (.object []) ∧
        SlotOutcome registry index false
          (registry.mergeOutputs library index updates schedule).1
          (registry.mergeOutputs library index updates schedule).2.1) := by
  by_cases hempty : updates = some (.object [])
  · refine .inl ⟨?_, hempty⟩
    subst hempty
    rw [mergeOutputs]
    split
    · rfl
    split
    · rfl
    split
    · rfl
    split
    · rfl
    · rfl
    · rename_i hstaged
      generalize hupdates : some (Json.object []) = updates at hstaged
      generalize hsome : some _ = staged at hstaged
      cases stageOutputUpdate_ok hstaged with
      | nothing => simp at hsome
      | merged hnonempty =>
          simp only [Option.some.injEq, Json.object.injEq] at hupdates
          exact absurd hupdates.symm hnonempty
  · refine .inr ⟨hempty, ?_⟩
    rw [mergeOutputs]
    split
    · exact .refused _ (by simp)
    split
    · exact .refused _ (by simp)
    rename_i slot hslot
    split
    · exact .refused _ (by simp)
    rename_i hopen
    have hne := stageOutputUpdate_ne library slot updates schedule
    split
    · rename_i hrefused
      rw [hrefused] at hne
      exact .refused _ (by simpa using hne)
    · rename_i hstaged
      generalize hnone : (none : Option TaskOutputs) = staged at hstaged
      cases stageOutputUpdate_ok hstaged with
      | nothing => exact absurd rfl hempty
      | merged => simp at hnone
    · rename_i hstaged
      exact .changed slot _ hslot
        (.publish (by simpa using hopen) (stageOutputUpdate_checked hstaged))

/-! ## Groups -/

theorem fresh_iff {entry : StagedOutputEntry} {slot : TaskSlot}
    (hslot : registry.slots[entry.index]? = some slot) :
    registry.fresh entry = true ↔ slot.state = entry.observedState ∧
      slot.outputs.map TaskOutputs.address = entry.observedOutputs ∧
      slot.revision = entry.observedRevision ∧ slot.revisionAvailable = true := by
  simp [fresh, hslot, and_assoc]

/-- The publication loop leaves the tasks alone that the group does not name. -/
theorem foldl_publishEntry_of_ne {group : List StagedOutputEntry} {index : Nat}
    (hothers : ∀ entry ∈ group, entry.index ≠ index) (registry : TaskRegistry) :
    (group.foldl publishEntry registry).slots[index]? = registry.slots[index]? := by
  induction group generalizing registry with
  | nil => rfl
  | cons entry rest ih =>
      rw [List.foldl_cons, ih (fun other hother => hothers other (List.mem_cons_of_mem _ hother)),
        getElem?_publishEntry, if_neg (hothers entry (List.mem_cons_self ..))]

/-- Each task of a group that names no task twice is published once. -/
theorem foldl_publishEntry_of_mem {group : List StagedOutputEntry}
    (hnodup : (group.map StagedOutputEntry.index).Nodup) {entry : StagedOutputEntry}
    (hentry : entry ∈ group) (registry : TaskRegistry) :
    (group.foldl publishEntry registry).slots[entry.index]? =
      (registry.publishEntry entry).slots[entry.index]? := by
  induction group generalizing registry with
  | nil => simp at hentry
  | cons first rest ih =>
      rw [List.map_cons, List.nodup_cons] at hnodup
      obtain ⟨hnew, hnodup⟩ := hnodup
      rw [List.foldl_cons]
      rcases List.mem_cons.mp hentry with rfl | hentry
      · refine foldl_publishEntry_of_ne (fun other hother heq => hnew ?_) _
        rw [← heq]
        exact List.mem_map_of_mem hother
      · have hne : first.index ≠ entry.index := fun heq => hnew (heq ▸ List.mem_map_of_mem hentry)
        rw [ih hnodup hentry, getElem?_publishEntry, getElem?_publishEntry, getElem?_publishEntry,
          if_neg hne]

/-- A group is sound for a registry: it names no task twice, was prepared for open tasks,
saw revisions that are not newer than the present ones, and holds checked objects. -/
structure GroupSound (registry : TaskRegistry) (group : List StagedOutputEntry) : Prop where
  nodup : (group.map StagedOutputEntry.index).Nodup
  observed : ∀ entry ∈ group, entry.observedState.finalized = false ∧
    ∃ slot, registry.slots[entry.index]? = some slot ∧
      entry.observedRevision.toNat ≤ slot.revision.toNat
  checked : ∀ entry ∈ group, ∀ staged, entry.staged = some staged → stageChecked staged = true

theorem prepareEntries_checked {updates : List TaskOutputUpdate} {schedule rest : AllocSchedule}
    {entries : List StagedOutputEntry}
    (hok : prepareEntries library registry updates schedule = (.ok entries, rest)) :
    ∀ entry ∈ entries, ∀ staged, entry.staged = some staged → stageChecked staged = true := by
  induction updates generalizing schedule entries with
  | nil =>
      obtain ⟨rfl, _⟩ : [] = entries ∧ schedule = rest := by simpa [prepareEntries] using hok
      simp
  | cons update remaining ih =>
      rw [prepareEntries] at hok
      split at hok
      · simp at hok
      split at hok
      · simp at hok
      split at hok
      · simp at hok
      rename_i staged _ hstaged
      split at hok
      · simp at hok
      rename_i tail _ htail
      simp only [Prod.mk.injEq, Except.ok.injEq] at hok
      obtain ⟨rfl, rfl⟩ := hok
      intro entry hentry object hobject
      rcases List.mem_cons.mp hentry with rfl | hentry
      · simp only at hobject
        subst hobject
        exact stageOutputUpdate_checked hstaged
      · exact ih htail entry hentry object hobject

theorem prepareOutputGroup_entries {updates : List TaskOutputUpdate}
    {schedule rest : AllocSchedule} {group : List StagedOutputEntry}
    (hok : prepareOutputGroup library registry updates schedule = (.ok group, rest)) :
    ∃ between, prepareEntries library registry updates between = (.ok group, rest) := by
  rw [prepareOutputGroup] at hok
  split at hok
  · simp at hok
  split at hok
  · simp at hok
  simp only at hok
  split at hok
  · simp at hok
  split at hok
  · simp at hok
  · exact ⟨_, hok⟩

/-- The entries of a prepared group stand for its updates. -/
theorem map_index_eq {updates : List TaskOutputUpdate} {group : List StagedOutputEntry}
    (hgroup : List.Forall₂ (Prepared library registry) updates group) :
    group.map StagedOutputEntry.index = updates.map TaskOutputUpdate.taskIndex := by
  induction hgroup with
  | nil => rfl
  | cons hentry _ ih => rw [List.map_cons, List.map_cons, hentry.index_eq, ih]

theorem exists_prepared {updates : List TaskOutputUpdate} {group : List StagedOutputEntry}
    (hgroup : List.Forall₂ (Prepared library registry) updates group) {entry : StagedOutputEntry}
    (hentry : entry ∈ group) : ∃ update ∈ updates, Prepared library registry update entry := by
  induction hgroup with
  | nil => simp at hentry
  | cons hfirst _ ih =>
      rcases List.mem_cons.mp hentry with rfl | hentry
      · exact ⟨_, List.mem_cons_self .., hfirst⟩
      · obtain ⟨found, hfound, hprepared⟩ := ih hentry
        exact ⟨found, List.mem_cons_of_mem _ hfound, hprepared⟩

theorem exists_entry {updates : List TaskOutputUpdate} {group : List StagedOutputEntry}
    (hgroup : List.Forall₂ (Prepared library registry) updates group) {update : TaskOutputUpdate}
    (hupdate : update ∈ updates) : ∃ entry ∈ group, Prepared library registry update entry := by
  induction hgroup with
  | nil => simp at hupdate
  | cons hfirst _ ih =>
      rcases List.mem_cons.mp hupdate with rfl | hupdate
      · exact ⟨_, List.mem_cons_self .., hfirst⟩
      · obtain ⟨found, hfound, hprepared⟩ := ih hupdate
        exact ⟨found, List.mem_cons_of_mem _ hfound, hprepared⟩

/-- A group is sound for the registry it was prepared for. -/
theorem GroupSound.of_prepare {updates : List TaskOutputUpdate} {schedule rest : AllocSchedule}
    {group : List StagedOutputEntry}
    (hok : prepareOutputGroup library registry updates schedule = (.ok group, rest)) :
    GroupSound registry group := by
  obtain ⟨hgroup, hnodup⟩ := prepareOutputGroup_ok hok
  obtain ⟨between, hentries⟩ := prepareOutputGroup_entries hok
  refine ⟨map_index_eq hgroup ▸ hnodup, fun entry hentry => ?_, prepareEntries_checked hentries⟩
  obtain ⟨update, _, hprepared⟩ := exists_prepared hgroup hentry
  obtain ⟨slot, hslot, hopen, _⟩ := hprepared.slot
  rw [← hprepared.index_eq] at hslot
  obtain ⟨hstate, _, hrevision, _⟩ := (fresh_iff hslot).mp hprepared.fresh
  rw [← hstate, ← hrevision]
  exact ⟨(TaskSlot.closed_eq_false_iff.mp hopen).1, slot, hslot, Nat.le_refl _⟩

/-- A sound group that is still fresh changes exactly the tasks it has objects for. -/
theorem GroupSound.publish {group : List StagedOutputEntry} (hsound : GroupSound registry group)
    (hfresh : group.all registry.fresh = true) {index : Nat}
    (hindex : index ∈ RegistryWorld.groupChanges group) :
    ∃ slot next, registry.slots[index]? = some slot ∧
      (group.foldl publishEntry registry).slots[index]? = some next ∧
      SlotChange false slot next := by
  obtain ⟨entry, hentry, rfl⟩ := List.mem_map.mp hindex
  obtain ⟨hentry, hstaged⟩ := List.mem_filter.mp hentry
  obtain ⟨staged, hstaged⟩ := Option.isSome_iff_exists.mp hstaged
  obtain ⟨hopen, slot, hslot, _⟩ := hsound.observed entry hentry
  have hentryFresh := List.all_eq_true.mp hfresh entry hentry
  obtain ⟨hstate, _, _, hrevision⟩ := (fresh_iff hslot).mp hentryFresh
  refine ⟨slot, slot.publish staged, hslot, ?_, .publish ?_ (hsound.checked entry hentry _ hstaged)⟩
  · rw [foldl_publishEntry_of_mem hsound.nodup hentry, getElem?_publishEntry, if_pos rfl, hslot]
    simp [hstaged]
  · exact TaskSlot.closed_eq_false_iff.mpr ⟨hstate ▸ hopen, hrevision⟩

/-- An entry without an object changes nothing, so only the listed tasks change. -/
theorem foldl_publishEntry_of_notMem {group : List StagedOutputEntry} {index : Nat}
    (hindex : index ∉ RegistryWorld.groupChanges group) (registry : TaskRegistry) :
    (group.foldl publishEntry registry).slots[index]? = registry.slots[index]? := by
  induction group generalizing registry with
  | nil => rfl
  | cons entry rest ih =>
      have hrest : index ∉ RegistryWorld.groupChanges rest := by
        intro hmem
        apply hindex
        obtain ⟨other, hother, hequal⟩ := List.mem_map.mp hmem
        obtain ⟨hother, hstaged⟩ := List.mem_filter.mp hother
        exact List.mem_map.mpr ⟨other,
          List.mem_filter.mpr ⟨List.mem_cons_of_mem _ hother, hstaged⟩, hequal⟩
      rw [List.foldl_cons, ih hrest, getElem?_publishEntry]
      by_cases hhere : entry.index = index
      · have hnone : entry.staged = none := by
          by_contra hsome
          apply hindex
          refine List.mem_map.mpr ⟨entry, List.mem_filter.mpr ⟨List.mem_cons_self .., ?_⟩, hhere⟩
          exact Option.isSome_iff_ne_none.mpr hsome
        simp [hnone]
      · rw [if_neg hhere]

end TaskRegistry

/-! ## One call -/

namespace RegistryWorld

open TaskRegistry

variable {library : JsonLibrary} {world : RegistryWorld}

/-- Every group a driver holds is sound. -/
def GroupsSound (world : RegistryWorld) : Prop :=
  ∀ handle group, world.groups handle = some group → GroupSound world.registry group

/-- What a call does to the registry. -/
structure StepSpec (world : RegistryWorld) (request : RegistryRequest)
    (result : RegistryWorld × Salts) : Prop where
  refused : result.2 ≠ .ok → result.1 = world
  kept : ∀ index, index ∉ world.changes request → result.1.slot index = world.slot index
  changed : result.2 = .ok → ∀ index ∈ world.changes request, ∃ slot next,
    world.slot index = some slot ∧ result.1.slot index = some next ∧
      SlotChange request.restarts slot next

/-- A call about one task that did what `SlotOutcome` says. -/
theorem StepSpec.of_outcome {request : RegistryRequest} {index : Nat}
    (hchanges : world.changes request = [index]) {registry : TaskRegistry} {status : Salts}
    (houtcome : SlotOutcome world.registry index request.restarts registry status) :
    StepSpec world request ({ world with registry := registry }, status) := by
  cases houtcome with
  | refused status hstatus =>
      exact ⟨fun _ => rfl, fun _ _ => rfl, fun hok => absurd hok hstatus⟩
  | changed slot next hslot hchange =>
      obtain ⟨hlt, _⟩ := List.getElem?_eq_some_iff.mp hslot
      refine ⟨fun hne => absurd rfl hne, fun other hother => ?_, fun _ other hother => ?_⟩
      · rw [hchanges, List.mem_singleton] at hother
        exact List.getElem?_set_ne (Ne.symm hother)
      · rw [hchanges, List.mem_singleton] at hother
        subst hother
        exact ⟨slot, next, hslot, by simp [RegistryWorld.slot, withSlot, hlt], hchange⟩

/-- A call that leaves the registry alone. -/
theorem StepSpec.quiet {request : RegistryRequest} (hchanges : world.changes request = [])
    {result : RegistryWorld × Salts} (hregistry : result.1.registry = world.registry)
    (hrefused : result.2 ≠ .ok → result.1 = world) : StepSpec world request result := by
  refine ⟨hrefused, fun index _ => ?_, fun _ index hindex => ?_⟩
  · rw [slot, slot, hregistry]
  · simp [hchanges] at hindex

theorem publish_spec (hsound : world.GroupsSound) (handle : Nat) :
    StepSpec world (.publish handle) (world.step library (.publish handle)) := by
  simp only [step]
  cases hgroup : world.groups handle with
  | none => exact .quiet (by simp [changes, hgroup, groupChanges]) rfl fun _ => rfl
  | some group =>
      simp only [publishOutputGroup]
      by_cases hfresh : group.all world.registry.fresh = true
      · rw [if_pos hfresh]
        refine ⟨fun hne => absurd rfl hne, fun index hindex => ?_, fun _ index hindex => ?_⟩
        · rw [changes, hgroup, Option.getD_some] at hindex
          exact foldl_publishEntry_of_notMem hindex world.registry
        · rw [changes, hgroup, Option.getD_some] at hindex
          exact (hsound handle group hgroup).publish hfresh hindex
      · rw [if_neg hfresh]
        exact ⟨fun _ => rfl, fun _ _ => rfl, by simp⟩

/-- Every call on sound groups does what `StepSpec` says. -/
theorem step_spec (library : JsonLibrary) (hsound : world.GroupsSound)
    (request : RegistryRequest) : StepSpec world request (world.step library request) := by
  cases request with
  | start index => exact .of_outcome rfl (start_outcome world.registry index)
  | complete index => exact .of_outcome rfl (conclude_outcome .success world.registry index)
  | skip index => exact .of_outcome rfl (conclude_outcome .skipped world.registry index)
  | fail index reason schedule =>
      exact .of_outcome rfl (fail_outcome world.registry index reason schedule)
  | setOutput index key value schedule =>
      exact .of_outcome rfl (setOutput_outcome world.registry index key value schedule)
  | mergeOutputs index updates schedule =>
      rcases @mergeOutputs_outcome library world.registry index updates schedule with
        ⟨hsame, rfl⟩ | ⟨hne, houtcome⟩
      · exact .quiet rfl hsame fun _ => by simp only [step, hsame]
      · refine .of_outcome ?_ houtcome
        rw [changes]
        exact hne
  | prepare handle updates schedule =>
      have hne := world.registry.prepareOutputGroup_ne library updates schedule
      simp only [step]
      split
      · exact .quiet rfl rfl fun _ => rfl
      · exact .quiet rfl rfl fun h => absurd rfl h
  | publish handle => exact publish_spec hsound handle
  | discard handle => exact .quiet rfl rfl fun h => absurd rfl h

/-- Slots stay, and their revisions never grow smaller. -/
theorem StepSpec.revision_le {request : RegistryRequest} {result : RegistryWorld × Salts}
    (hspec : StepSpec world request result) {index : Nat} {slot : TaskSlot}
    (hslot : world.slot index = some slot) :
    ∃ next, result.1.slot index = some next ∧ slot.revision.toNat ≤ next.revision.toNat := by
  by_cases hindex : index ∈ world.changes request
  · by_cases hok : result.2 = .ok
    · obtain ⟨found, next, hfound, hnext, hchange⟩ := hspec.changed hok index hindex
      obtain rfl : slot = found := by simpa [hslot] using hfound
      exact ⟨next, hnext, by rw [hchange.revision_eq]; omega⟩
    · exact ⟨slot, by rw [hspec.refused hok, hslot], Nat.le_refl _⟩
  · exact ⟨slot, by rw [hspec.kept index hindex, hslot], Nat.le_refl _⟩

/-- A group was there before, or has just been prepared. -/
theorem step_groups {request : RegistryRequest} {handle : Nat} {group : List StagedOutputEntry}
    (hgroup : (world.step library request).1.groups handle = some group) :
    world.groups handle = some group ∨ ∃ updates schedule rest,
      world.registry.prepareOutputGroup library updates schedule = (.ok group, rest) ∧
        (world.step library request).1.registry = world.registry := by
  cases request with
  | prepare other updates schedule =>
      simp only [step] at hgroup ⊢
      split at hgroup
      · exact .inl hgroup
      · rename_i staged rest hstaged
        by_cases hhandle : handle = other
        · subst hhandle
          obtain rfl : staged = group := by simpa using hgroup
          exact .inr ⟨updates, schedule, rest, hstaged, by simp⟩
        · exact .inl (by simpa [Function.update_of_ne hhandle] using hgroup)
  | publish other =>
      simp only [step] at hgroup
      split at hgroup
      · exact .inl hgroup
      split at hgroup
      · by_cases hhandle : handle = other
        · simp [hhandle] at hgroup
        · exact .inl (by simpa [Function.update_of_ne hhandle] using hgroup)
      · exact .inl hgroup
  | discard other =>
      by_cases hhandle : handle = other
      · simp [step, hhandle] at hgroup
      · exact .inl (by simpa [step, Function.update_of_ne hhandle] using hgroup)
  | start | complete | skip | fail | setOutput | mergeOutputs => exact .inl hgroup

/-- Groups stay sound. -/
theorem GroupsSound.step (library : JsonLibrary) (hsound : world.GroupsSound)
    (request : RegistryRequest) : (world.step library request).1.GroupsSound := by
  intro handle group hgroup
  have hspec := step_spec library hsound request
  rcases step_groups hgroup with hold | ⟨updates, schedule, rest, hprepared, hregistry⟩
  · obtain ⟨hnodup, hobserved, hchecked⟩ := hsound handle group hold
    refine ⟨hnodup, fun entry hentry => ?_, hchecked⟩
    obtain ⟨hopen, slot, hslot, hle⟩ := hobserved entry hentry
    obtain ⟨next, hnext, hrevision⟩ := hspec.revision_le hslot
    exact ⟨hopen, next, hnext, Nat.le_trans hle hrevision⟩
  · rw [hregistry]
    exact .of_prepare hprepared

theorem groupsSound_fresh (registry : TaskRegistry) : (fresh registry).GroupsSound := by
  intro handle group hgroup
  simp [fresh] at hgroup

/-- Groups are sound after every list of calls. -/
theorem groupsSound_drive (library : JsonLibrary) (hsound : world.GroupsSound)
    (requests : List RegistryRequest) :
    (drive (RegistryWorld.step library) world requests).GroupsSound :=
  drive_invariant GroupsSound (fun _ request hsound => hsound.step library request) requests hsound

end RegistryWorld

end Praktor.Workflow
