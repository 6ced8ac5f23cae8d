/-
# The slots of sleeping leaves

The slots of the native host are a table of a fixed number of activations, with the session and the
node of a leaf as its key.  A request for a Sleep works on the entry of its own key: it admits the
leaf, lets it wait, or ends its sleep.  Every other leaf leaves the table alone and never runs on.
-/

import Praktor.Math.SlotTable
import Praktor.Native.Settling

namespace Praktor.Native

open Praktor.Data Praktor.Math Praktor.Values Praktor.Output
open Praktor.Runtime (NodeStatus reference)

variable {Number Regex : Type}

/-! ## The table -/

/-- The session and the node of a leaf. -/
abbrev Sleeper := Nat × Nat

/-- A sleep that is under way: when it started, and how long it is. -/
structure Sleep where
  startedNs : Nat
  durationNs : Nat
  deriving DecidableEq, Repr

/-- The entry of a slot. -/
def SleepState.entry (state : SleepState) : Option (Sleeper × Sleep) :=
  if state.active then
    some ((state.sessionOwner, state.nodeIndex), ⟨state.startedNs, state.durationNs⟩)
  else none

/-- The slot of an activation. -/
def Sleep.slot (sleep : Sleep) (key : Sleeper) : SleepState :=
  ⟨key.1, key.2, sleep.startedNs, sleep.durationNs, true⟩

/-- The entries of the slots. -/
def slotEntries (states : List SleepState) : List (Option (Sleeper × Sleep)) :=
  states.map SleepState.entry

/-- The slots are those of a table. -/
def Tabled (table : SlotTable Sleeper Sleep) (states : List SleepState) : Prop :=
  slotEntries states = table.slots

/-- The leaf that a request is about. -/
def LeafRequest.sleeper (request : LeafRequest Number) : Option Sleeper :=
  request.sessionOwner.map fun owner => (owner, request.nodeIndex)

theorem entry_eq_some {state : SleepState} {key : Sleeper} {sleep : Sleep} :
    state.entry = some (key, sleep) ↔ state = sleep.slot key := by
  obtain ⟨owner, node, started, duration, active⟩ := state
  obtain ⟨session, index⟩ := key
  obtain ⟨since, long⟩ := sleep
  cases active <;> simp [SleepState.entry, Sleep.slot, and_assoc]

theorem entry_isNone (state : SleepState) : state.entry.isNone = !state.active := by
  unfold SleepState.entry
  cases state.active <;> rfl

section Table

variable {table : SlotTable Sleeper Sleep} {states : List SleepState} {request : LeafRequest Number}
  {key : Sleeper} {sleep : Sleep}

theorem Tabled.length_eq (htabled : Tabled table states) :
    table.slots.length = states.length := by
  rw [← htabled, slotEntries, List.length_map]

/-- An activation is in the table when a slot holds it. -/
theorem Tabled.lookup_iff (htabled : Tabled table states) :
    table.lookup key = some sleep ↔ sleep.slot key ∈ states := by
  rw [SlotTable.lookup_eq_some_iff, ← htabled, slotEntries, List.mem_map]
  constructor
  · rintro ⟨state, hstate, hentry⟩
    rwa [← entry_eq_some.mp hentry]
  · intro hslot
    exact ⟨_, hslot, entry_eq_some.mpr rfl⟩

/-- `find_sleep` finds the place of the request's own entry. -/
theorem findSleep_eq (states : List SleepState) (hkey : request.sleeper = some key) :
    findSleep states request = (slotEntries states).findIdx? (SlotTable.holdsKey key) := by
  obtain ⟨owner, howner, rfl⟩ := Option.map_eq_some_iff.mp hkey
  unfold findSleep slotEntries
  rw [List.findIdx?_map]
  refine congrArg (fun test => List.findIdx? test states) (funext fun state => ?_)
  obtain ⟨session, node, started, duration, active⟩ := state
  cases active
  · rfl
  · simp [SleepState.entry, SlotTable.holdsKey, howner, Bool.decide_and]

theorem findSleep_of_unowned (states : List SleepState) (hkey : request.sleeper = none) :
    findSleep states request = none := by
  have howner : request.sessionOwner = none := Option.map_eq_none_iff.mp hkey
  unfold findSleep
  rw [List.findIdx?_eq_none_iff]
  intro state _
  simp [howner]

/-- `find_sleep` finds nothing when the table has no entry of the request's own. -/
theorem Tabled.findSleep_none (htabled : Tabled table states) (hkey : request.sleeper = some key) :
    findSleep states request = none ↔ table.lookup key = none := by
  rw [findSleep_eq states hkey, htabled, SlotTable.lookup_eq_of_findIdx?]
  cases hfound : table.slots.findIdx? (SlotTable.holdsKey key) with
  | none => exact ⟨fun _ => rfl, fun _ => rfl⟩
  | some place =>
      obtain ⟨sleep, hslot⟩ := SlotTable.getElem?_of_findIdx? hfound
      simp [hslot]

/-- What `find_sleep` finds. -/
theorem Tabled.findSleep_some (htabled : Tabled table states) (hkey : request.sleeper = some key)
    {place : Nat} (hfound : findSleep states request = some place) :
    ∃ sleep, table.lookup key = some sleep ∧ states[place]? = some (sleep.slot key) ∧
      Tabled (table.erase key) (states.set place .free) := by
  rw [findSleep_eq states hkey, htabled] at hfound
  obtain ⟨sleep, hslot⟩ := SlotTable.getElem?_of_findIdx? hfound
  refine ⟨sleep, ?_, ?_, ?_⟩
  · rw [SlotTable.lookup_eq_of_findIdx?, hfound]
    simp [hslot]
  · rw [← htabled, slotEntries, List.getElem?_map] at hslot
    obtain ⟨state, hstate, hentry⟩ := Option.map_eq_some_iff.mp hslot
    rw [hstate, entry_eq_some.mp hentry]
  · rw [Tabled, SlotTable.erase_slots hfound, ← htabled, slotEntries, slotEntries, List.map_set]
    rfl

/-- A new activation goes into the first free slot. -/
theorem Tabled.put (htabled : Tabled table states) (hmissing : table.lookup key = none)
    (sleep : Sleep) :
    match table.put key sleep with
    | none => states.findIdx? (fun state => !state.active) = none
    | some next => ∃ place, states.findIdx? (fun state => !state.active) = some place ∧
        Tabled next (states.set place (sleep.slot key)) := by
  have hfree : states.findIdx? (fun state => !state.active) =
      table.slots.findIdx? Option.isNone := by
    rw [← htabled, slotEntries, List.findIdx?_map]
    refine congrArg (fun test => List.findIdx? test states) (funext fun state => ?_)
    exact (entry_isNone state).symm
  have hslots := SlotTable.put_slots table key sleep
  have habsent : table.slots.findIdx? (SlotTable.holdsKey key) = none := by
    rw [SlotTable.lookup_eq_of_findIdx?] at hmissing
    cases hfound : table.slots.findIdx? (SlotTable.holdsKey key) with
    | none => rfl
    | some place =>
        obtain ⟨old, hslot⟩ := SlotTable.getElem?_of_findIdx? hfound
        rw [hfound] at hmissing
        simp [hslot] at hmissing
  rw [habsent] at hslots
  rw [hfree]
  cases hput : table.put key sleep with
  | none =>
      rw [hput] at hslots
      cases hplace : table.slots.findIdx? Option.isNone with
      | none => rfl
      | some place =>
          rw [hplace] at hslots
          cases hslots
  | some next =>
      rw [hput] at hslots
      cases hplace : table.slots.findIdx? Option.isNone with
      | none =>
          rw [hplace] at hslots
          cases hslots
      | some place =>
          rw [hplace] at hslots
          refine ⟨place, rfl, ?_⟩
          rw [Tabled, slotEntries, List.map_set, ← slotEntries, htabled]
          exact (Option.some.inj hslots).symm

end Table

/-! ## Sleep -/

/-- What a request for a Sleep does to the table. -/
def sleepTick (env : Environment Number Regex) (values : ValueStore) (capacity : Nat)
    (param : Option (LeafValue Number)) (key : Sleeper) (table : SlotTable Sleeper Sleep) :
    Except Salts NodeStatus × SlotTable Sleeper Sleep :=
  match table.lookup key with
  | none =>
      match durationOf env values capacity param with
      | .error code => (.error code, table)
      | .ok duration =>
          if duration = 0 then (.ok .success, table)
          else
            match table.put key ⟨env.now, duration⟩ with
            | none => (.error .enobufs, table)
            | some next => (.ok .running, next)
  | some sleep =>
      if env.now < sleep.startedNs then (.error .einval, table)
      else if env.now - sleep.startedNs < sleep.durationNs then (.ok .running, table)
      else (.ok .success, table.erase key)

section Ticking

variable {host : NativeHost Regex} {request : LeafRequest Number}
  {key : Sleeper} {table : SlotTable Sleeper Sleep}

theorem NativeHost.Scratched.sleepStates_eq {next : NativeHost Regex} (hnext : host.Scratched next) :
    next.sleepStates = host.sleepStates := by
  obtain ⟨scratch, rfl⟩ := hnext
  rfl

/-- `tick_sleep` does to the slots what it does to the table. -/
theorem tickSleep_tabled (env : Environment Number Regex) (htabled : Tabled table host.sleepStates)
    (hkey : request.sleeper = some key) :
    (LeafM.on (tickSleep env request) host).1 =
        (sleepTick env host.values host.scratchCapacity (parameter request "duration") key
          table).1 ∧
      Tabled (sleepTick env host.values host.scratchCapacity (parameter request "duration") key
        table).2 (LeafM.on (tickSleep env request) host).2.sleepStates := by
  obtain ⟨owner, howner, hkeyEq⟩ := Option.map_eq_some_iff.mp hkey
  unfold tickSleep sleepTick
  rw [howner]
  dsimp only
  rw [on_bind, on_get]
  dsimp only
  cases hfound : findSleep host.sleepStates request with
  | none =>
      rw [(htabled.findSleep_none hkey).mp hfound]
      obtain ⟨next, hscratched, hduration⟩ :=
        sleepDuration_on env host (parameter request "duration")
      have hslots := hscratched.sleepStates_eq
      dsimp only
      rw [on_bind, hduration]
      cases durationOf env host.values host.scratchCapacity (parameter request "duration") with
      | error code =>
          refine ⟨rfl, ?_⟩
          show Tabled table next.sleepStates
          rw [hslots]
          exact htabled
      | ok duration =>
          dsimp only
          by_cases hzero : duration = 0
          · rw [if_pos hzero, if_pos hzero]
            refine ⟨rfl, ?_⟩
            show Tabled table next.sleepStates
            rw [hslots]
            exact htabled
          rw [if_neg hzero, if_neg hzero, on_bind, on_get]
          dsimp only
          have hput := htabled.put ((htabled.findSleep_none hkey).mp hfound)
            ⟨env.now, duration⟩
          rw [← hslots] at hput htabled
          cases hplaced : table.put key ⟨env.now, duration⟩ with
          | none =>
              rw [hplaced] at hput
              rw [hput]
              exact ⟨rfl, htabled⟩
          | some after =>
              rw [hplaced] at hput
              obtain ⟨place, hplace, hafter⟩ := hput
              rw [hplace]
              subst hkeyEq
              exact ⟨rfl, hafter⟩
  | some place =>
      obtain ⟨sleep, hlookup, hslot, herased⟩ := htabled.findSleep_some hkey hfound
      rw [hlookup]
      dsimp only
      rw [on_bind, on_get]
      dsimp only
      rw [hslot]
      dsimp only [Sleep.slot]
      by_cases hbefore : env.now < sleep.startedNs
      · rw [if_pos hbefore, if_pos hbefore]
        exact ⟨rfl, htabled⟩
      rw [if_neg hbefore, if_neg hbefore]
      by_cases hshort : env.now - sleep.startedNs < sleep.durationNs
      · rw [if_pos hshort, if_pos hshort]
        exact ⟨rfl, htabled⟩
      · rw [if_neg hshort, if_neg hshort]
        exact ⟨rfl, herased⟩

/-- `halt_typed_leaf` erases the entry of the request's own. -/
theorem haltTypedLeaf_tabled (htabled : Tabled table host.sleepStates)
    (hkey : request.sleeper = some key) :
    Tabled (table.erase key) (haltTypedLeaf request host).sleepStates := by
  unfold haltTypedLeaf
  cases hfound : findSleep host.sleepStates request with
  | none =>
      rw [SlotTable.erase_of_lookup_eq_none ((htabled.findSleep_none hkey).mp hfound)]
      exact htabled
  | some place =>
      obtain ⟨sleep, -, -, herased⟩ := htabled.findSleep_some hkey hfound
      exact herased

theorem haltTypedLeaf_unowned (hkey : request.sleeper = none) :
    haltTypedLeaf request host = host := by
  unfold haltTypedLeaf
  rw [findSleep_of_unowned _ hkey]

end Ticking

/-! ## Every leaf -/

/-- The argument checks of `tick_leaf`. -/
def LeafRequest.Admitted (request : LeafRequest Number) : Prop :=
  request.inParallelBranch = false ∧ namesAdmitted request.parameters = true

/-- A request for a Sleep of a session that passes the checks. -/
structure LeafRequest.SleepOf (request : LeafRequest Number) (key : Sleeper) : Prop where
  admitted : request.Admitted
  action : request.action.bytes = ascii "Sleep"
  sleeper : request.sleeper = some key

/-- What a request does to the table: as a Sleep, or nothing. -/
inductive LeafTick (env : Environment Number Regex) (host : NativeHost Regex)
    (request : LeafRequest Number) (table : SlotTable Sleeper Sleep) :
    Except Salts NodeStatus → SlotTable Sleeper Sleep → Prop
  | sleep {key : Sleeper} (hsleep : request.SleepOf key) :
      LeafTick env host request table
        (sleepTick env host.values host.scratchCapacity (parameter request "duration") key table).1
        (sleepTick env host.values host.scratchCapacity (parameter request "duration") key table).2
  | other {answer : Except Salts NodeStatus} (hother : ∀ key, ¬ request.SleepOf key)
      (hrunning : answer ≠ .ok .running)
      (hfree : ∀ status key, answer = .ok status → request.sleeper = some key →
        table.lookup key = none) : LeafTick env host request table answer table

/-- What an answer says of the table: a leaf that runs on has an entry, one that is done has none, and
one that fails keeps what it had. -/
theorem LeafTick.lookup_spec {env : Environment Number Regex} {host : NativeHost Regex}
    {request : LeafRequest Number} {table next : SlotTable Sleeper Sleep}
    {answer : Except Salts NodeStatus} (htick : LeafTick env host request table answer next)
    {key : Sleeper} (hkey : request.sleeper = some key) :
    (answer = .ok .running → next.lookup key ≠ none) ∧
      (∀ status, answer = .ok status → status ≠ .running → next.lookup key = none) ∧
      (∀ code, answer = .error code → next.lookup key = table.lookup key) ∧
      (∀ other, other ≠ key → next.lookup other = table.lookup other) ∧
      (next.lookup key ≠ none →
        table.lookup key ≠ none ∨ request.action.bytes = ascii "Sleep") := by
  cases htick with
  | other hother hrunning hfree =>
      exact ⟨fun hrun => absurd hrun hrunning, fun status hstatus _ => hfree status key hstatus hkey,
        fun _ _ => rfl, fun _ _ => rfl, .inl⟩
  | @sleep key' hsleep =>
      obtain rfl : key' = key := Option.some.inj (hsleep.sleeper.symm.trans hkey)
      refine ⟨?_, ?_, ?_, ?_, fun _ => .inr hsleep.action⟩
      all_goals
        unfold sleepTick
        cases hlookup : table.lookup key' with
        | none =>
            dsimp only
            cases durationOf env host.values host.scratchCapacity (parameter request "duration") with
            | error code => simp_all
            | ok duration =>
                dsimp only
                by_cases hzero : duration = 0
                · simp_all
                rw [if_neg hzero]
                cases hput : table.put key' ⟨env.now, duration⟩ with
                | none => simp_all
                | some after => simp +contextual [SlotTable.lookup_put hput]
        | some sleep =>
            dsimp only
            split
            · simp_all
            split
            · simp_all
            · simp +contextual [SlotTable.lookup_erase]

/-- The leaves of `tick_leaf` that are no Sleep. -/
def tickOther (env : Environment Number Regex) (request : LeafRequest Number) :
    LeafM Regex NodeStatus :=
  if request.action.bytes = ascii "ParseJson" then tickParseJson env request
  else if request.action.bytes = ascii "ParseRegex" then tickParseRegex env request
  else if request.action.bytes = ascii "ParseLines" then tickParseLines env request
  else if request.action.bytes = ascii "ParseKeyValue" then tickParseKeyValue env request
  else if request.action.bytes = ascii "SetVariable" then tickSetVariable env request
  else if request.action.bytes = ascii "CheckExitCode" then tickCheckExitCode env request
  else throw .enotsup

theorem settles_tickOther (env : Environment Number Regex) (request : LeafRequest Number) :
    Settles (tickOther env request) := by
  unfold tickOther
  split
  · exact settles_tickParseJson env request
  split
  · exact settles_tickParseRegex env request
  split
  · exact settles_tickParseLines env request
  split
  · exact settles_tickParseKeyValue env request
  split
  · exact settles_tickSetVariable env request
  split
  · exact settles_tickCheckExitCode env request
  · exact settles_throw _

/-- `tick_leaf` does to the slots what the request does to the table. -/
theorem tickLeaf_tabled (env : Environment Number Regex) {host : NativeHost Regex}
    (request : LeafRequest Number) {table : SlotTable Sleeper Sleep}
    (htabled : Tabled table host.sleepStates) :
    ∃ next, Tabled next (LeafM.on (tickLeaf env request) host).2.sleepStates ∧
      LeafTick env host request table (LeafM.on (tickLeaf env request) host).1 next := by
  have hrefused : ∀ code : Salts, (∀ key, ¬ request.SleepOf key) →
      LeafTick env host request table (.error code) table := fun code hother =>
    .other hother (fun hrunning => by cases hrunning) fun status key hok => by cases hok
  unfold tickLeaf
  by_cases hbranch : request.inParallelBranch = true
  · rw [if_pos hbranch]
    refine ⟨table, htabled, hrefused _ fun key hsleep => ?_⟩
    rw [hsleep.admitted.1] at hbranch
    cases hbranch
  rw [if_neg hbranch]
  by_cases hnames : (!namesAdmitted request.parameters) = true
  · rw [if_pos hnames]
    refine ⟨table, htabled, hrefused _ fun key hsleep => ?_⟩
    rw [hsleep.admitted.2] at hnames
    cases hnames
  rw [if_neg hnames]
  by_cases haction : request.action.bytes = ascii "Sleep"
  · rw [if_pos haction]
    cases hkey : request.sleeper with
    | none =>
        refine ⟨table, ?_, ?_⟩
        all_goals
          unfold tickSleep
          rw [Option.map_eq_none_iff.mp hkey]
        · exact htabled
        · refine hrefused _ fun key hsleep => ?_
          rw [hsleep.sleeper] at hkey
          cases hkey
    | some key =>
        obtain ⟨hanswer, hslots⟩ := tickSleep_tabled env htabled hkey
        refine ⟨_, hslots, ?_⟩
        rw [hanswer]
        exact .sleep ⟨⟨by simpa using hbranch, by simpa using hnames⟩, haction, hkey⟩
  · rw [if_neg haction, on_bind, on_get]
    dsimp only
    have hother : ∀ key, ¬ request.SleepOf key := fun key hsleep => haction hsleep.action
    by_cases hfound : (findSleep host.sleepStates request).isSome = true
    · rw [if_pos hfound]
      exact ⟨table, htabled, hrefused _ hother⟩
    rw [if_neg hfound]
    show ∃ next, Tabled next (LeafM.on (tickOther env request) host).2.sleepStates ∧
      LeafTick env host request table (LeafM.on (tickOther env request) host).1 next
    obtain ⟨hsame, hrunning⟩ := settles_tickOther env request
    have hslots : (LeafM.on (tickOther env request) host).2.sleepStates = host.sleepStates :=
      (hsame host).1
    refine ⟨table, ?_, .other hother (hrunning host) fun status key _ hkey => ?_⟩
    · rw [hslots]
      exact htabled
    · exact (htabled.findSleep_none hkey).mp (by simpa using hfound)

end Praktor.Native
