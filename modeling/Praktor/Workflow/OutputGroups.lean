/-
# Prepared output groups under interference

Between the preparation of a group and its publication the driver may call the registry as
it likes.  The publication compares state, address and revision of every slot with what the
preparation saw.  Addresses may be reused and states may come back; the revision does not,
since every change of a task takes one and none wraps.  So a group is published exactly when
none of its tasks was changed.
-/

import Praktor.Workflow.RegistryRun

namespace Praktor.Workflow

open Praktor.Data Praktor.Math

namespace RegistryWorld

open TaskRegistry

variable {library : JsonLibrary} {world : RegistryWorld}

/-! ## What happens in between -/

/-- The event that a task is changed. -/
def Mutated (index : Nat) (world : RegistryWorld) (request : RegistryRequest) (status : Salts) :
    Prop :=
  status = .ok ∧ index ∈ world.changes request

/-- The event that the group in `handle` is published, discarded or replaced. -/
def Released (handle : Nat) (_ : RegistryWorld) (request : RegistryRequest) (status : Salts) :
    Prop :=
  request.Releases handle ∧ status = .ok

/-- A task that no call changed has its slot. -/
theorem slot_of_not_mutated (hsound : world.GroupsSound) {requests : List RegistryRequest}
    {index : Nat}
    (hquiet : ¬ occurs (RegistryWorld.step library) (Mutated index) world requests) :
    (drive (RegistryWorld.step library) world requests).slot index = world.slot index := by
  refine (drive_of_not_occurs
    (fun later => later.GroupsSound ∧ later.slot index = world.slot index) ?_ requests hquiet
    ⟨hsound, rfl⟩).2
  rintro later request ⟨hlater, hsame⟩ hnot
  have hspec := step_spec library hlater request
  refine ⟨hlater.step library request, Eq.trans ?_ hsame⟩
  by_cases hok : (later.step library request).2 = .ok
  · exact hspec.kept index fun hindex => hnot ⟨hok, hindex⟩
  · rw [hspec.refused hok]

/-- Revisions never grow smaller. -/
theorem revision_le_drive (library : JsonLibrary) (hsound : world.GroupsSound)
    (requests : List RegistryRequest) {index : Nat} {slot : TaskSlot}
    (hslot : world.slot index = some slot) :
    ∃ next, (drive (RegistryWorld.step library) world requests).slot index = some next ∧
      slot.revision.toNat ≤ next.revision.toNat := by
  refine (drive_invariant (fun later : RegistryWorld => later.GroupsSound ∧
    ∃ next, later.slot index = some next ∧ slot.revision.toNat ≤ next.revision.toNat) ?_ requests
    ⟨hsound, slot, hslot, Nat.le_refl _⟩).2
  rintro later request ⟨hlater, next, hnext, hle⟩
  obtain ⟨last, hlast, hstep⟩ := (step_spec library hlater request).revision_le hnext
  exact ⟨hlater.step library request, last, hlast, Nat.le_trans hle hstep⟩

/-- A call that changes a task leaves it with a newer revision, whatever follows. -/
theorem revision_lt_of_step (hsound : world.GroupsSound) {request : RegistryRequest} {index : Nat}
    (hmutated : Mutated index world request (world.step library request).2) {slot : TaskSlot}
    (hslot : world.slot index = some slot) (requests : List RegistryRequest) :
    ∃ next, (drive (RegistryWorld.step library) (world.step library request).1 requests).slot
        index = some next ∧ slot.revision.toNat < next.revision.toNat := by
  obtain ⟨found, changed, hfound, hchanged, hchange⟩ :=
    (step_spec library hsound request).changed hmutated.1 index hmutated.2
  obtain rfl : slot = found := by simpa [hslot] using hfound
  obtain ⟨next, hnext, hle⟩ := revision_le_drive library (hsound.step library request) requests
    hchanged
  exact ⟨next, hnext, by rw [hchange.revision_eq] at hle; omega⟩

/-- A task that some call changed has a newer revision. -/
theorem revision_lt_of_mutated (hsound : world.GroupsSound) {requests : List RegistryRequest}
    {index : Nat} (hmutated : occurs (RegistryWorld.step library) (Mutated index) world requests)
    {slot : TaskSlot} (hslot : world.slot index = some slot) :
    ∃ next, (drive (RegistryWorld.step library) world requests).slot index = some next ∧
      slot.revision.toNat < next.revision.toNat := by
  induction requests generalizing world slot with
  | nil => exact absurd hmutated id
  | cons request rest ih =>
      rcases hmutated with hhere | hlater
      · exact revision_lt_of_step hsound hhere hslot rest
      · obtain ⟨between, hbetween, hle⟩ := (step_spec library hsound request).revision_le hslot
        obtain ⟨next, hnext, hlt⟩ := ih (hsound.step library request) hlater hbetween
        exact ⟨next, hnext, Nat.lt_of_le_of_lt hle hlt⟩

theorem step_group_kept {request : RegistryRequest} {handle : Nat}
    (hkept : ¬ Released handle world request (world.step library request).2) :
    (world.step library request).1.groups handle = world.groups handle := by
  cases request with
  | prepare other updates schedule =>
      simp only [step] at hkept ⊢
      split at hkept
      · rfl
      · have hne : handle ≠ other := fun h => hkept ⟨h.symm, rfl⟩
        exact Function.update_of_ne hne _ _
  | publish other =>
      simp only [step] at hkept ⊢
      split
      · rfl
      rename_i group hgroup
      simp only [hgroup] at hkept
      split
      · rename_i hok
        simp only [hok] at hkept
        have hne : handle ≠ other := fun h => hkept ⟨h.symm, rfl⟩
        exact Function.update_of_ne hne _ _
      · rfl
  | discard other =>
      have hne : handle ≠ other := fun h => hkept ⟨h.symm, rfl⟩
      exact Function.update_of_ne hne _ _
  | start | complete | skip | fail | setOutput | mergeOutputs => rfl

/-- A group that nobody gave up is still there. -/
theorem group_of_not_released {requests : List RegistryRequest} {handle : Nat}
    (hkept : ¬ occurs (RegistryWorld.step library) (Released handle) world requests) :
    (drive (RegistryWorld.step library) world requests).groups handle = world.groups handle :=
  drive_of_not_occurs (fun later => later.groups handle = world.groups handle)
    (fun _ _ hsame hnot => (step_group_kept hnot).trans hsame) requests hkept rfl

/-! ## The publication -/

theorem step_publish {handle : Nat} {group : List StagedOutputEntry}
    (hgroup : world.groups handle = some group) :
    world.step library (.publish handle) =
      if group.all world.registry.fresh = true then
        (⟨group.foldl publishEntry world.registry, Function.update world.groups handle none⟩, .ok)
      else (world, .ebusy) := by
  simp only [step, hgroup, publishOutputGroup]
  by_cases hfresh : group.all world.registry.fresh = true
  · simp only [if_pos hfresh]
  · simp only [if_neg hfresh]

/-- An entry whose slot has a newer revision than it saw is stale. -/
theorem not_fresh_of_lt {registry : TaskRegistry} {entry : StagedOutputEntry} {slot : TaskSlot}
    (hslot : registry.slots[entry.index]? = some slot)
    (hnewer : entry.observedRevision.toNat < slot.revision.toNat) :
    ¬ registry.fresh entry = true := by
  intro hfresh
  rw [((fresh_iff hslot).mp hfresh).2.2.1] at hnewer
  exact Nat.lt_irrefl _ hnewer

/-- Freshness is a matter of the slot. -/
theorem fresh_congr {before after : TaskRegistry} {entry : StagedOutputEntry}
    (hslot : after.slots[entry.index]? = before.slots[entry.index]?) :
    after.fresh entry = before.fresh entry := by
  rw [TaskRegistry.fresh, TaskRegistry.fresh, hslot]

/-- `after` has the updates merged into what the slots held when the group was prepared,
and is `current` elsewhere. -/
structure GroupMerged (prepared current after : RegistryWorld) (updates : List TaskOutputUpdate) :
    Prop where
  listed : ∀ update ∈ updates, ∃ slot members next,
    prepared.slot update.taskIndex = some slot ∧ update.updates = some (.object members) ∧
      after.slot update.taskIndex = some next ∧ MergedSlot slot members next
  others : ∀ index, (∀ update ∈ updates, update.taskIndex ≠ index) →
    after.slot index = current.slot index

/-- The publication in `current` of the group in `handle` that was prepared in `prepared`,
with `between` called in between. -/
structure PublishSpec (library : JsonLibrary) (prepared : RegistryWorld)
    (between : List RegistryRequest) (updates : List TaskOutputUpdate) (current : RegistryWorld)
    (result : RegistryWorld × Salts) : Prop where
  ok_iff : result.2 = .ok ↔ ∀ update ∈ updates,
    ¬ occurs (RegistryWorld.step library) (Mutated update.taskIndex) prepared between
  refused : result.2 ≠ .ok → result.2 = .ebusy ∧ result.1 = current
  merged : result.2 = .ok → GroupMerged prepared current result.1 updates

theorem publish_between (hsound : world.GroupsSound) {updates : List TaskOutputUpdate}
    {group : List StagedOutputEntry}
    (hgroup : List.Forall₂ (Prepared library world.registry) updates group)
    (hnodup : (updates.map TaskOutputUpdate.taskIndex).Nodup) {handle : Nat}
    (hhandle : world.groups handle = some group) {between : List RegistryRequest}
    (hkept : ¬ occurs (RegistryWorld.step library) (Released handle) world between) :
    PublishSpec library world between updates (drive (RegistryWorld.step library) world between)
      ((drive (RegistryWorld.step library) world between).step library (.publish handle)) := by
  have hsame : ∀ update : TaskOutputUpdate,
      ¬ occurs (RegistryWorld.step library) (Mutated update.taskIndex) world between →
      (drive (RegistryWorld.step library) world between).registry.slots[update.taskIndex]? =
        world.registry.slots[update.taskIndex]? := fun _ => slot_of_not_mutated hsound
  have hfresh : group.all (drive (RegistryWorld.step library) world between).registry.fresh = true ↔
      ∀ update ∈ updates,
        ¬ occurs (RegistryWorld.step library) (Mutated update.taskIndex) world between := by
    constructor
    · intro hall update hupdate hmutated
      obtain ⟨entry, hentry, hprepared⟩ := exists_entry hgroup hupdate
      obtain ⟨slot, hslot, _, _⟩ := hprepared.slot
      obtain ⟨next, hnext, hlt⟩ := revision_lt_of_mutated hsound hmutated hslot
      rw [← hprepared.index_eq] at hslot hnext
      rw [((fresh_iff hslot).mp hprepared.fresh).2.2.1] at hlt
      exact not_fresh_of_lt hnext hlt (List.all_eq_true.mp hall entry hentry)
    · intro hquiet
      refine List.all_eq_true.mpr fun entry hentry => ?_
      obtain ⟨update, hupdate, hprepared⟩ := exists_prepared hgroup hentry
      rw [fresh_congr (hprepared.index_eq ▸ hsame update (hquiet update hupdate))]
      exact hprepared.fresh
  rw [step_publish ((group_of_not_released hkept).trans hhandle)]
  by_cases hall : group.all (drive (RegistryWorld.step library) world between).registry.fresh = true
  · have hquiet := hfresh.mp hall
    rw [if_pos hall]
    refine ⟨⟨fun _ => hquiet, fun _ => rfl⟩, fun hne => absurd rfl hne, fun _ => ?_⟩
    have hmerged := outputsMerged_foldl hgroup hnodup
      (drive (RegistryWorld.step library) world between).registry
      fun update hupdate => hsame update (hquiet update hupdate)
    refine ⟨fun update hupdate => ?_, hmerged.others⟩
    obtain ⟨slot, members, next, hslot, hmembers, hnext, hchange⟩ := hmerged.listed update hupdate
    rw [hsame update (hquiet update hupdate)] at hslot
    exact ⟨slot, members, next, hslot, hmembers, hnext, hchange⟩
  · rw [if_neg hall]
    exact ⟨⟨by simp, fun hquiet => absurd (hfresh.mpr hquiet) hall⟩, fun _ => ⟨rfl, rfl⟩, by simp⟩

/-- Once a group has been published, another one that was outstanding meanwhile and has an
object for a common task is refused. -/
theorem publish_exclusive (hsound : world.GroupsSound) {first second : Nat}
    {firstGroup secondGroup : List StagedOutputEntry}
    (hfirst : world.groups first = some firstGroup)
    (hsecond : world.groups second = some secondGroup) {index : Nat}
    (hfirstIndex : index ∈ groupChanges firstGroup)
    (hsecondIndex : index ∈ groupChanges secondGroup) {before after : List RegistryRequest}
    (hfirstKept : ¬ occurs (RegistryWorld.step library) (Released first) world before)
    (hsecondKept : ¬ occurs (RegistryWorld.step library) (Released second) world
      (before ++ .publish first :: after))
    (hok : ((drive (RegistryWorld.step library) world before).step library
      (.publish first)).2 = .ok) :
    ((drive (RegistryWorld.step library) world (before ++ .publish first :: after)).step library
      (.publish second)).2 = .ebusy := by
  have hsecondBefore := hsecondKept
  rw [occurs_append, not_or] at hsecondBefore
  have hpresent := (group_of_not_released hsecondBefore.1).trans hsecond
  have hlater := groupsSound_drive library hsound before
  have hmutated : Mutated index (drive (RegistryWorld.step library) world before) (.publish first)
      ((drive (RegistryWorld.step library) world before).step library (.publish first)).2 := by
    refine ⟨hok, ?_⟩
    rw [changes, (group_of_not_released hfirstKept).trans hfirst, Option.getD_some]
    exact hfirstIndex
  obtain ⟨entry, hentry, rfl⟩ := List.mem_map.mp hsecondIndex
  obtain ⟨hentry, _⟩ := List.mem_filter.mp hentry
  obtain ⟨_, slot, hslot, hle⟩ := (hlater second secondGroup hpresent).observed entry hentry
  obtain ⟨next, hnext, hlt⟩ := revision_lt_of_step hlater hmutated hslot after
  rw [step_publish ((group_of_not_released hsecondKept).trans hsecond), if_neg]
  intro hall
  rw [drive_append] at hall
  exact not_fresh_of_lt hnext (Nat.lt_of_le_of_lt hle hlt) (List.all_eq_true.mp hall entry hentry)

/-- Groups may be prepared now and published later. -/
structure StaleSafe (library : JsonLibrary) (world : RegistryWorld) : Prop where
  publication : ∀ handle updates schedule,
    (world.step library (.prepare handle updates schedule)).2 = .ok →
    ∀ between, ¬ occurs (RegistryWorld.step library) (Released handle)
        (world.step library (.prepare handle updates schedule)).1 between →
      PublishSpec library (world.step library (.prepare handle updates schedule)).1 between updates
        (drive (RegistryWorld.step library)
          (world.step library (.prepare handle updates schedule)).1 between)
        ((drive (RegistryWorld.step library)
          (world.step library (.prepare handle updates schedule)).1 between).step library
            (.publish handle))
  exclusive : ∀ first second firstGroup secondGroup index,
    world.groups first = some firstGroup → world.groups second = some secondGroup →
    index ∈ groupChanges firstGroup → index ∈ groupChanges secondGroup →
    ∀ before after, ¬ occurs (RegistryWorld.step library) (Released first) world before →
      ¬ occurs (RegistryWorld.step library) (Released second) world
        (before ++ .publish first :: after) →
      ((drive (RegistryWorld.step library) world before).step library (.publish first)).2 = .ok →
      ((drive (RegistryWorld.step library) world (before ++ .publish first :: after)).step library
        (.publish second)).2 = .ebusy

/-- A prepared group stands in its handle, and the registry is as it was. -/
theorem step_prepare_ok {handle : Nat} {updates : List TaskOutputUpdate} {schedule : AllocSchedule}
    (hok : (world.step library (.prepare handle updates schedule)).2 = .ok) :
    ∃ group rest, world.registry.prepareOutputGroup library updates schedule = (.ok group, rest) ∧
      (world.step library (.prepare handle updates schedule)).1 =
        { world with groups := Function.update world.groups handle (some group) } := by
  have hne := world.registry.prepareOutputGroup_ne library updates schedule
  simp only [step] at hok ⊢
  split at hok
  · rename_i status rest hrefused
    obtain rfl : status = .ok := hok
    simp [hrefused] at hne
  · rename_i group rest hprepared
    exact ⟨group, rest, hprepared, rfl⟩

/-- For every registry and every sequence of calls on it, publication is safe against stale
groups. -/
theorem run_staleSafe (library : JsonLibrary) (registry : TaskRegistry)
    (requests : List RegistryRequest) :
    StaleSafe library (drive (RegistryWorld.step library) (fresh registry) requests) := by
  have hsound := groupsSound_drive library (groupsSound_fresh registry) requests
  generalize drive (RegistryWorld.step library) (fresh registry) requests = world at hsound ⊢
  refine ⟨fun handle updates schedule hok between hkept => ?_, ?_⟩
  · obtain ⟨group, rest, hprepared, hworld⟩ := step_prepare_ok hok
    obtain ⟨hgroup, hnodup⟩ := prepareOutputGroup_ok hprepared
    have hnext := hsound.step library (.prepare handle updates schedule)
    rw [hworld] at hnext hkept ⊢
    exact publish_between hnext hgroup hnodup (Function.update_self ..) hkept
  · intro first second firstGroup secondGroup index hfirst hsecond hfirstIndex hsecondIndex before
      after hfirstKept hsecondKept hok
    exact publish_exclusive hsound hfirst hsecond hfirstIndex hsecondIndex hfirstKept hsecondKept
      hok

end RegistryWorld

end Praktor.Workflow
