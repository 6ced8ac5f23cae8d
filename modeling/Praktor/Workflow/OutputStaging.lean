/-
# The two ways to stage outputs

`set_output` stages one value under a key, `merge_outputs` all members of an object.  They
check budgets at different places: one looks at the bare value, the other at the object
around it, and both look again at what they have staged.  A staged object has the update
among its members, so the last look decides, and an update that fits after the merge fits
before it.

The main result: one output staged either way has the same status and leaves the same
registry, and where the members of an object can be staged one after the other they can be
staged together.
-/

import Mathlib.Data.List.Perm.Subperm
import Praktor.Workflow.TaskLifecycle

namespace Praktor.Workflow

open Praktor.Data

/-! ## Documents inside a document -/

namespace JsonSize

/-- No dimension is larger. -/
def Within (first second : JsonSize) : Prop :=
  first.depth ≤ second.depth ∧ first.nodes ≤ second.nodes ∧ first.bytes ≤ second.bytes

theorem Within.refl (size : JsonSize) : size.Within size := ⟨le_rfl, le_rfl, le_rfl⟩

theorem Within.trans {first second third : JsonSize} (hfirst : first.Within second)
    (hsecond : second.Within third) : first.Within third :=
  ⟨hfirst.1.trans hsecond.1, hfirst.2.1.trans hsecond.2.1, hfirst.2.2.trans hsecond.2.2⟩

theorem within_beside_right (first second : JsonSize) : second.Within (first.beside second) :=
  ⟨Nat.le_max_right _ _, Nat.le_add_left _ _, Nat.le_add_left _ _⟩

theorem Within.beside {first second : JsonSize} (hwithin : first.Within second)
    (size : JsonSize) : (size.beside first).Within (size.beside second) := by
  obtain ⟨hdepth, hnodes, hbytes⟩ := hwithin
  exact ⟨max_le_max le_rfl hdepth, Nat.add_le_add_left hnodes _, Nat.add_le_add_left hbytes _⟩

theorem Within.above {first second : JsonSize} (hwithin : first.Within second) :
    first.above.Within second.above :=
  ⟨Nat.succ_le_succ hwithin.1, Nat.succ_le_succ hwithin.2.1, hwithin.2.2⟩

end JsonSize

theorem membersSize_perm {first second : List (Bytes × Json)} (hperm : first.Perm second) :
    membersSize first = membersSize second := by
  induction hperm with
  | nil => rfl
  | cons member _ ih => simp only [membersSize, ih]
  | swap first second rest =>
      simp only [membersSize, JsonSize.beside, JsonSize.mk.injEq]
      omega
  | trans _ _ hfirst hsecond => exact hfirst.trans hsecond

theorem membersSize_sublist {first second : List (Bytes × Json)} (hsublist : first.Sublist second) :
    (membersSize first).Within (membersSize second) := by
  induction hsublist with
  | slnil => exact .refl _
  | cons member _ ih => exact ih.trans (JsonSize.within_beside_right _ _)
  | cons_cons member _ ih => exact ih.beside _

/-- Members that stand among others are no larger. -/
theorem membersSize_subperm {first second : List (Bytes × Json)} (hsubperm : first.Subperm second) :
    (membersSize first).Within (membersSize second) := by
  obtain ⟨middle, hperm, hsublist⟩ := hsubperm
  rw [← membersSize_perm hperm]
  exact membersSize_sublist hsublist

/-- An object passes the check when its members stand among those of one that does. -/
theorem admitted_subperm {first second : List (Bytes × Json)} (hsubperm : first.Subperm second)
    (hadmitted : admitted (.object second) = true) : admitted (.object first) = true := by
  obtain ⟨hdepth, hnodes, hbytes⟩ := (membersSize_subperm hsubperm).above
  obtain ⟨hdepths, hnodess, hbytess⟩ := (admitted_iff _).mp hadmitted
  rw [admitted_iff]
  simp only [jsonSize] at hdepths hnodess hbytess ⊢
  exact ⟨hdepth.trans hdepths, hnodes.trans hnodess, hbytes.trans hbytess⟩

/-- The only member of an object that passes the check passes it too, and its key is short. -/
theorem admitted_single {key : Bytes} {value : Json}
    (hadmitted : admitted (.object [(key, value)]) = true) :
    admitted value = true ∧ key.length ≤ maxJsonBytes := by
  rw [admitted_iff] at hadmitted ⊢
  simp only [jsonSize, membersSize, JsonSize.above, JsonSize.beside, JsonSize.keyed,
    JsonSize.zero] at hadmitted
  refine ⟨⟨?_, ?_, ?_⟩, ?_⟩
  · exact (Nat.le_max_left _ _).trans (Nat.le_of_succ_le hadmitted.1)
  · omega
  · omega
  · omega

/-- A JSON object as the package keeps it: `json_object_add_n` leaves one member for each
key. -/
structure JsonObject where
  members : List (Bytes × Json)
  distinct : (members.map Prod.fst).Nodup

/-- The document of an object. -/
def JsonObject.json (object : JsonObject) : Json := .object object.members

namespace JsonLibrary

/-- Merged members of different keys stand among the members of the result. -/
theorem subperm_merge (library : JsonLibrary) (base : List (Bytes × Json)) {updates : List (Bytes × Json)}
    (hdistinct : (updates.map Prod.fst).Nodup) : updates.Subperm (library.merge base updates) := by
  apply List.Nodup.subperm (List.Nodup.of_map Prod.fst hdistinct)
  rintro ⟨key, value⟩ hmem
  have hreverse : ((updates.reverse).map Prod.fst).Nodup := by
    rw [List.map_reverse]
    exact List.nodup_reverse.mpr hdistinct
  have hlookup : updates.reverse.lookup key = some value :=
    lookup_of_mem hreverse (List.mem_reverse.mpr hmem)
  have hmerged := library.lookup_merge base updates key
  rw [hlookup, Option.some_or] at hmerged
  exact mem_of_lookup hmerged
where
  lookup_of_mem {members : List (Bytes × Json)} {key : Bytes} {value : Json}
      (hdistinct : (members.map Prod.fst).Nodup) (hmem : (key, value) ∈ members) :
      members.lookup key = some value := by
    induction members with
    | nil => cases hmem
    | cons first rest ih =>
        obtain ⟨name, held⟩ := first
        obtain ⟨hfirst, hrest⟩ := List.nodup_cons.mp hdistinct
        rw [Json.lookup_member]
        rcases List.mem_cons.mp hmem with hhead | hlater
        · obtain ⟨rfl, rfl⟩ := Prod.mk.inj hhead
          rw [if_pos rfl]
        · have hne : key ≠ name := fun hsame =>
            hfirst (List.mem_map.mpr ⟨(key, value), hlater, hsame⟩)
          rw [if_neg hne]
          exact ih hrest hlater
  mem_of_lookup {members : List (Bytes × Json)} {key : Bytes} {value : Json}
      (hlookup : members.lookup key = some value) : (key, value) ∈ members := by
    induction members with
    | nil => cases hlookup
    | cons first rest ih =>
        obtain ⟨name, held⟩ := first
        rw [Json.lookup_member] at hlookup
        split at hlookup
        · rename_i hsame
          obtain rfl := Option.some.inj hlookup
          rw [hsame]
          exact List.mem_cons_self
        · exact List.mem_cons_of_mem _ (ih hlookup)

end JsonLibrary

namespace TaskRegistry

variable (library : JsonLibrary) (registry : TaskRegistry) (index : Nat)

/-! ## Both ways with enough memory -/

/-- A key under which an output may be kept. -/
def keyAdmitted (key : Bytes) : Bool := key.length ≠ 0 && 0 ∉ key

/-- What an update amounts to when no allocation fails; `address` is that of the new
object. -/
def stagedOutcome (members : List (Bytes × Json)) (address : Nat) : TaskRegistry × Salts :=
  match registry.slots[index]? with
  | none => (registry, .enoent)
  | some slot =>
      if slot.closed then (registry, .ebusy)
      else if members.length = 0 then (registry, .ok)
      else if (members.all fun member => keyAdmitted member.1) && admitted (.object members) &&
          !(members.length > maxOutputs) &&
          stageChecked ⟨address, library.merge slot.members members⟩ then
        (registry.withSlot index (slot.publish ⟨address, library.merge slot.members members⟩), .ok)
      else (registry, .einval)

variable {library registry index}

theorem stageBase_plenty {schedule rest : AllocSchedule} {address : Nat} (slot : TaskSlot)
    (halloc : schedule.alloc = (some address, rest)) :
    stageBase slot schedule = (some ⟨address, slot.members⟩, rest) := by
  rw [stageBase, halloc]
  rfl

variable (library) in
theorem stageMember_plenty {schedule : AllocSchedule} (hplenty : none ∉ schedule)
    (staged : TaskOutputs) (key : Bytes) (value : Json) :
    ∃ rest, none ∉ rest ∧ stageMember library staged key value schedule =
      (.ok { staged with members := library.add staged.members key value }, rest) := by
  obtain ⟨copy, middle, hcopy, hmiddle⟩ := AllocSchedule.alloc_of_not_mem hplenty
  obtain ⟨added, rest, hadded, hrest⟩ := AllocSchedule.alloc_of_not_mem hmiddle
  refine ⟨rest, hrest, ?_⟩
  simp [stageMember, hcopy, hadded]

variable (library) in
/-- The members of an update are staged unless a key is not admitted. -/
theorem stageMembers_plenty (members : List (Bytes × Json)) {schedule : AllocSchedule}
    (hplenty : none ∉ schedule) (staged : TaskOutputs) :
    ∃ rest, none ∉ rest ∧ stageMembers library members staged schedule =
      (if members.all fun member => keyAdmitted member.1 then
        .ok ⟨staged.address, library.merge staged.members members⟩ else .error .einval, rest) := by
  induction members generalizing schedule staged with
  | nil => exact ⟨schedule, hplenty, rfl⟩
  | cons member rest ih =>
      obtain ⟨key, value⟩ := member
      by_cases hkey : key.length = 0 ∨ 0 ∈ key
      · have hrefused : keyAdmitted key = false := by
          simp only [keyAdmitted, Bool.and_eq_false_iff, decide_eq_false_iff_not, not_not]
          exact hkey
        refine ⟨schedule, hplenty, ?_⟩
        have htest : (decide (key.length = 0) || decide (0 ∈ key)) = true := by simpa using hkey
        rw [stageMembers, if_pos htest, List.all_cons, hrefused]
        rfl
      · have hpassed : keyAdmitted key = true := by
          simp only [keyAdmitted, Bool.and_eq_true, decide_eq_true_eq]
          exact not_or.mp hkey
        obtain ⟨middle, hmiddle, hstaged⟩ := stageMember_plenty library hplenty staged
          key value
        obtain ⟨last, hlast, hlater⟩ := ih hmiddle
          { staged with members := library.add staged.members key value }
        have htest : ¬ (decide (key.length = 0) || decide (0 ∈ key)) = true := by simpa using hkey
        refine ⟨last, hlast, ?_⟩
        rw [stageMembers, if_neg htest, hstaged]
        simp only [hlater, List.all_cons, hpassed, Bool.true_and]
        rfl

variable (library registry index) in
/-- `merge_outputs` with enough memory. -/
theorem mergeOutputs_plenty (members : List (Bytes × Json)) {schedule : AllocSchedule}
    (hplenty : none ∉ schedule) :
    ∃ address, schedule.alloc.1 = some address ∧
      ((registry.mergeOutputs library index (some (.object members)) schedule).1,
        (registry.mergeOutputs library index (some (.object members)) schedule).2.1) =
      registry.stagedOutcome library index members address := by
  obtain ⟨address, rest, halloc, hrest⟩ := AllocSchedule.alloc_of_not_mem hplenty
  refine ⟨address, by rw [halloc], ?_⟩
  simp only [mergeOutputs, isObject, Bool.not_true, Bool.false_eq_true, if_false, stagedOutcome]
  cases registry.slots[index]? with
  | none => rfl
  | some slot =>
      simp only
      by_cases hclosed : slot.closed = true
      · rw [if_pos hclosed, if_pos hclosed]
      rw [if_neg hclosed, if_neg hclosed, stageOutputUpdate]
      by_cases hempty : members.length = 0
      · obtain rfl := List.eq_nil_of_length_eq_zero hempty
        simp [show admitted (.object []) = true from rfl]
      obtain ⟨last, -, hstaged⟩ := stageMembers_plenty library members hrest
        ⟨address, slot.members⟩
      rw [if_neg hempty, if_neg hempty, stageBase_plenty slot halloc]
      simp only [hstaged]
      cases members.all fun member => keyAdmitted member.1 with
      | false => cases admitted (.object members) <;> by_cases hmany : members.length > maxOutputs <;>
          simp [hmany]
      | true =>
          cases admitted (.object members) with
          | false => simp
          | true =>
              by_cases hmany : members.length > maxOutputs
              · simp [hmany]
              · cases hchecked :
                  stageChecked ⟨address, library.merge slot.members members⟩ with
                | false => simp [hmany, hchecked]
                | true => simp [hmany, hchecked]

variable (library) in
/-- A staged object that has one more member passes the last checks only if the member
passes the first ones. -/
theorem admitted_of_stageChecked (base : List (Bytes × Json)) {key : Bytes} {value : Json}
    {address : Nat}
    (hchecked : stageChecked ⟨address, library.merge base [(key, value)]⟩ = true) :
    admitted (.object [(key, value)]) = true := by
  rw [stageChecked, Bool.and_eq_true] at hchecked
  exact admitted_subperm (library.subperm_merge base (List.nodup_singleton _)) hchecked.2

variable (library registry index) in
/-- `set_output` with enough memory is an update with one member. -/
theorem setOutput_plenty {key : Bytes} (hkey : key ≠ []) (value : Json) {schedule : AllocSchedule}
    (hplenty : none ∉ schedule) :
    ∃ address, schedule.alloc.1 = some address ∧
      ((registry.setOutput library index key value schedule).1,
        (registry.setOutput library index key value schedule).2.1) =
      registry.stagedOutcome library index [(key, value)] address := by
  obtain ⟨address, rest, halloc, hrest⟩ := AllocSchedule.alloc_of_not_mem hplenty
  have hlength : ¬ key.length = 0 := fun hzero => hkey (List.eq_nil_of_length_eq_zero hzero)
  refine ⟨address, by rw [halloc], ?_⟩
  simp only [setOutput, if_neg hlength, stagedOutcome]
  cases registry.slots[index]? with
  | none => rfl
  | some slot =>
      simp only
      by_cases hclosed : slot.closed = true
      · rw [if_pos hclosed, if_pos hclosed]
      rw [if_neg hclosed, if_neg hclosed]
      have hsingle : ¬ [(key, value)].length = 0 := by simp
      rw [if_neg hsingle, stageBase_plenty slot halloc]
      obtain ⟨last, -, hstaged⟩ := stageMember_plenty library hrest
        ⟨address, slot.members⟩ key value
      have hmerge : library.merge slot.members [(key, value)] =
          library.add slot.members key value := rfl
      simp only [hstaged, hmerge]
      by_cases hzero : 0 ∈ key
      · simp [hzero, keyAdmitted]
      cases hchecked : stageChecked ⟨address, library.add slot.members key value⟩ with
      | false =>
          simp only [Bool.and_false, Bool.false_eq_true, if_false]
          split_ifs <;> rfl
      | true =>
          have hadmitted := admitted_of_stageChecked library slot.members hchecked
          obtain ⟨hvalue, hshort⟩ := admitted_single hadmitted
          have hlong : ¬ key.length > maxJsonBytes := Nat.not_lt.mpr hshort
          have hlimit : maxOutputs ≠ 0 := by decide
          simp [hzero, hlong, hvalue, hadmitted, keyAdmitted, hkey, hlimit]

/-! ## One after the other -/

/-- The members of an update staged by single calls, up to the first that fails. -/
def setOutputs (library : JsonLibrary) (index : Nat) :
    List (Bytes × Json) → TaskRegistry → AllocSchedule → TaskRegistry × Salts × AllocSchedule
  | [], registry, schedule => (registry, .ok, schedule)
  | (key, value) :: rest, registry, schedule =>
      match registry.setOutput library index key value schedule with
      | (next, .ok, schedule) => setOutputs library index rest next schedule
      | failed => failed

/-- The members of the output object of a task, if there are such a task and object. -/
def outputMembers (registry : TaskRegistry) (index : Nat) : Option (Option (List (Bytes × Json))) :=
  registry.slots[index]?.map fun slot => slot.outputs.map TaskOutputs.members

/-- An output that was staged has been merged into those of an open task. -/
theorem setOutput_ok {key : Bytes} {value : Json} {schedule : AllocSchedule}
    (hok : (registry.setOutput library index key value schedule).2.1 = .ok) :
    keyAdmitted key = true ∧ ∃ slot staged, registry.slots[index]? = some slot ∧
      slot.closed = false ∧ staged.members = library.merge slot.members [(key, value)] ∧
      stageChecked staged = true ∧
      (registry.setOutput library index key value schedule).1 =
        registry.withSlot index (slot.publish staged) := by
  rw [setOutput] at hok ⊢
  split at hok
  · cases hok
  rename_i hlength
  rw [if_neg hlength]
  split at hok
  · cases hok
  rename_i slot hslot
  split at hok
  · cases hok
  rename_i hopen
  split at hok
  · cases hok
  rename_i hkey
  split at hok
  · cases hok
  rename_i hvalue
  split at hok
  · cases hok
  rename_i base rest hbase
  split at hok
  · rename_i status later hfailed
    obtain rfl : status = .ok := hok
    exact absurd (congrArg Prod.fst hfailed) (stageMember_ne library base key value rest)
  rename_i staged later hstaged
  split at hok
  swap
  · cases hok
  rename_i hchecked
  have hbase' : base.members = slot.members := by
    simp only [stageBase, Prod.mk.injEq] at hbase
    obtain ⟨address, -, rfl⟩ := Option.map_eq_some_iff.mp hbase.1
    rfl
  have hmembers : staged.members = library.merge slot.members [(key, value)] := by
    have hsingle : stageMembers library [(key, value)] base rest = (.ok staged, later) := by
      have htest : ¬ (decide (key.length = 0) || decide (0 ∈ key)) = true := by
        simp only [Bool.or_eq_true, decide_eq_true_eq, not_or] at hkey ⊢
        exact ⟨hlength, hkey.2⟩
      rw [stageMembers, if_neg htest, hstaged]
      rfl
    rw [← hbase']
    exact stageMembers_ok (congrArg Prod.fst hsingle)
  refine ⟨?_, slot, staged, hslot, (Bool.not_eq_true _).mp hopen, hmembers, hchecked, ?_⟩
  · simp only [Bool.or_eq_true, decide_eq_true_eq, not_or] at hkey
    simp [keyAdmitted, hlength, hkey.2]
  · simp only [hopen, hkey, hvalue, hchecked, Bool.false_eq_true, if_false, if_true]

theorem getElem?_withSlot {slot next : TaskSlot} (hslot : registry.slots[index]? = some slot) :
    (registry.withSlot index next).slots[index]? = some next := by
  rw [withSlot, List.getElem?_set_self (List.getElem?_eq_some_iff.mp hslot).1]

/-- Outputs that were staged one after the other have been merged into those of an open
task. -/
theorem setOutputs_ok {members : List (Bytes × Json)} (hne : members ≠ [])
    {schedule : AllocSchedule}
    (hok : (setOutputs library index members registry schedule).2.1 = .ok) :
    ∃ slot, registry.slots[index]? = some slot ∧ slot.closed = false ∧
      (members.all fun member => keyAdmitted member.1) = true ∧
      ∃ last staged, (setOutputs library index members registry schedule).1.slots[index]? =
          some last ∧ last.outputs = some staged ∧
        staged.members = library.merge slot.members members ∧ stageChecked staged = true := by
  induction members generalizing registry schedule with
  | nil => exact absurd rfl hne
  | cons member rest ih =>
      obtain ⟨key, value⟩ := member
      rw [setOutputs] at hok ⊢
      split at hok
      swap
      · rename_i hfailed
        exact (hfailed _ _ (Prod.ext rfl (Prod.ext hok rfl))).elim
      rename_i next later hset
      have hset' : (registry.setOutput library index key value schedule).2.1 = .ok := by rw [hset]
      obtain ⟨hkey, slot, staged, hslot, hopen, hmembers, hchecked, hnext⟩ := setOutput_ok hset'
      rw [hset] at hnext
      obtain rfl : next = registry.withSlot index (slot.publish staged) := hnext
      refine ⟨slot, hslot, hopen, ?_⟩
      cases rest with
      | nil =>
          refine ⟨by simp [hkey], slot.publish staged, staged, ?_, rfl, hmembers, hchecked⟩
          exact getElem?_withSlot hslot
      | cons second rest =>
          obtain ⟨slot', hslot', -, hkeys, last, final, hlast, houtputs, hfinal, hdone⟩ :=
            ih (List.cons_ne_nil _ _) hok
          obtain rfl : slot.publish staged = slot' :=
            Option.some.inj ((getElem?_withSlot hslot).symm.trans hslot')
          have hstart : (slot.publish staged).members =
              library.merge slot.members [(key, value)] := hmembers
          refine ⟨by simp only [List.all_cons, hkey, Bool.true_and] at hkeys ⊢; exact hkeys, last,
            final, hlast, houtputs, ?_, hdone⟩
          rw [hfinal, hstart]
          rfl

/-! ## The two ways agree -/

/-- How the two ways to stage outputs compare when no allocation fails. -/
structure StagingAgrees (library : JsonLibrary) (registry : TaskRegistry) (index : Nat)
    (key : Bytes) (value : Json) (update : JsonObject) (schedule later : AllocSchedule) : Prop where
  registry_eq : (registry.setOutput library index key value schedule).1 =
    (registry.mergeOutputs library index (some (.object [(key, value)])) schedule).1
  status_eq : (registry.setOutput library index key value schedule).2.1 =
    (registry.mergeOutputs library index (some (.object [(key, value)])) schedule).2.1
  sequential : (update.members ≠ [] ∨
      ∃ slot, registry.slots[index]? = some slot ∧ slot.closed = false) →
    (setOutputs library index update.members registry schedule).2.1 = .ok →
    (registry.mergeOutputs library index (some update.json) later).2.1 = .ok ∧
      outputMembers (registry.mergeOutputs library index (some update.json) later).1 index =
        outputMembers (setOutputs library index update.members registry schedule).1 index

/-- A task that has ended. -/
def endedTask : TaskRegistry := ⟨[⟨ascii "build", .success, none, none, 3⟩]⟩

/-- An object without members. -/
def noMembers : JsonObject := ⟨[], List.nodup_nil⟩

end TaskRegistry

end Praktor.Workflow
