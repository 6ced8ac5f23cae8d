/-
# Runs of the native host

A host serves requests of any number of sessions, in any order, while its store changes.  No slot is
taken by two activations, a request moves its own slot only, and a slot keeps what its activation
was admitted with until that activation ends.
-/

import Mathlib.Data.List.Induction
import Praktor.Math.Run
import Praktor.Native.SleepSlots

namespace Praktor.Native

open Praktor.Data Praktor.Math Praktor.Values
open Praktor.Runtime (NodeStatus reference)

variable {Number Regex : Type}

/-! ## Calls -/

/-- The calls of a host, and the changes of its store from outside. -/
inductive HostCall (Number Regex : Type)
  | tick (env : Environment Number Regex) (request : LeafRequest Number)
  | halt (request : LeafRequest Number)
  | store (values : ValueStore)

/-- One call, with its answer if it has one. -/
def serve (host : NativeHost Regex) :
    HostCall Number Regex → NativeHost Regex × Option (Except Salts NodeStatus)
  | .tick env request =>
      ((LeafM.on (tickLeaf env request) host).2, some (LeafM.on (tickLeaf env request) host).1)
  | .halt request => (haltTypedLeaf request host, none)
  | .store values => ({ host with values }, none)

/-- The leaf that a call is about. -/
def HostCall.sleeper : HostCall Number Regex → Option Sleeper
  | .tick _ request => request.sleeper
  | .halt request => request.sleeper
  | .store _ => none

/-- What a call does to the table. -/
inductive Served (host : NativeHost Regex) (table : SlotTable Sleeper Sleep) :
    HostCall Number Regex → SlotTable Sleeper Sleep → Prop
  | tick {env : Environment Number Regex} {request : LeafRequest Number}
      {answer : Except Salts NodeStatus} {next : SlotTable Sleeper Sleep}
      (hanswer : (LeafM.on (tickLeaf env request) host).1 = answer)
      (htick : LeafTick env host request table answer next) :
      Served host table (.tick env request) next
  | halt {request : LeafRequest Number} {key : Sleeper} (hkey : request.sleeper = some key) :
      Served host table (.halt request) (table.erase key)
  | unowned {request : LeafRequest Number} (hkey : request.sleeper = none) :
      Served host table (.halt request) table
  | store (values : ValueStore) : Served host table (.store values) table

section Calls

variable {host : NativeHost Regex} {table next : SlotTable Sleeper Sleep}
  {call : HostCall Number Regex} {key : Sleeper} {sleep : Sleep}

theorem serve_tabled (call : HostCall Number Regex) (htabled : Tabled table host.sleepStates) :
    ∃ next, Tabled next (serve host call).1.sleepStates ∧ Served host table call next := by
  cases call with
  | tick env request =>
      obtain ⟨next, hnext, htick⟩ := tickLeaf_tabled env request htabled
      exact ⟨next, hnext, .tick rfl htick⟩
  | halt request =>
      cases hkey : request.sleeper with
      | none =>
          refine ⟨table, ?_, .unowned hkey⟩
          show Tabled table (haltTypedLeaf request host).sleepStates
          rw [haltTypedLeaf_unowned hkey]
          exact htabled
      | some key => exact ⟨_, haltTypedLeaf_tabled htabled hkey, .halt hkey⟩
  | store values => exact ⟨table, htabled, .store values⟩

/-- An activation is admitted: what it waits for is read from its parameter and from the store. -/
structure Admission (env : Environment Number Regex) (host : NativeHost Regex)
    (request : LeafRequest Number) (key : Sleeper) (sleep : Sleep) : Prop where
  asked : request.SleepOf key
  positive : 0 < sleep.durationNs
  duration : durationOf env host.values host.scratchCapacity (parameter request "duration") =
    .ok sleep.durationNs
  started : sleep.startedNs = env.now

/-- What a Sleep does to an entry of the table. -/
theorem sleepTick_lookup (env : Environment Number Regex) (host : NativeHost Regex)
    (param : Option (LeafValue Number)) (key other : Sleeper) :
    (sleepTick env host.values host.scratchCapacity param key table).2.slots.length =
        table.slots.length ∧
      (other ≠ key → (sleepTick env host.values host.scratchCapacity param key table).2.lookup other =
        table.lookup other) ∧
      (table.lookup key = none → ∀ sleep,
        (sleepTick env host.values host.scratchCapacity param key table).2.lookup key = some sleep →
        0 < sleep.durationNs ∧ sleep.startedNs = env.now ∧
          durationOf env host.values host.scratchCapacity param = .ok sleep.durationNs) := by
  unfold sleepTick
  cases hlookup : table.lookup key with
  | none =>
      have hkept : ∀ sleep, table.lookup key = some sleep →
          0 < sleep.durationNs ∧ sleep.startedNs = env.now ∧
            durationOf env host.values host.scratchCapacity param = .ok sleep.durationNs := by
        intro sleep hsome
        rw [hlookup] at hsome
        cases hsome
      dsimp only
      cases hduration : durationOf env host.values host.scratchCapacity param with
      | error code =>
          rw [hduration] at hkept
          exact ⟨rfl, fun _ => rfl, fun _ => hkept⟩
      | ok duration =>
          rw [hduration] at hkept
          dsimp only
          by_cases hzero : duration = 0
          · rw [if_pos hzero]
            exact ⟨rfl, fun _ => rfl, fun _ => hkept⟩
          rw [if_neg hzero]
          cases hput : table.put key ⟨env.now, duration⟩ with
          | none => exact ⟨rfl, fun _ => rfl, fun _ => hkept⟩
          | some next =>
              refine ⟨SlotTable.length_put hput, fun hother => ?_, fun _ sleep hsome => ?_⟩
              · show next.lookup other = _
                rw [SlotTable.lookup_put hput, Function.update_of_ne hother]
              · change next.lookup key = some sleep at hsome
                rw [SlotTable.lookup_put hput, Function.update_self] at hsome
                obtain rfl := Option.some.inj hsome
                exact ⟨Nat.pos_of_ne_zero hzero, rfl, rfl⟩
  | some sleep =>
      dsimp only
      split
      · exact ⟨rfl, fun _ => rfl, nofun⟩
      split
      · exact ⟨rfl, fun _ => rfl, nofun⟩
      · refine ⟨SlotTable.length_erase table key, fun hother => ?_, nofun⟩
        rw [SlotTable.lookup_erase, Function.update_of_ne hother]

/-- A call keeps the number of slots. -/
theorem Served.length_eq (hserved : Served host table call next) :
    next.slots.length = table.slots.length := by
  cases hserved with
  | tick _ htick =>
      cases htick with
      | sleep _ => exact (sleepTick_lookup _ host _ _ (0, 0)).1
      | other _ _ _ => rfl
  | halt _ => exact SlotTable.length_erase table _
  | unowned _ => rfl
  | store _ => rfl

/-- A call changes the entry of its own leaf only. -/
theorem Served.lookup_other (hserved : Served host table call next)
    (hother : call.sleeper ≠ some key) : next.lookup key = table.lookup key := by
  cases hserved with
  | tick _ htick =>
      cases htick with
      | sleep hsleep =>
          refine (sleepTick_lookup _ host _ _ key).2.1 fun hsame => hother ?_
          rw [hsame]
          exact hsleep.sleeper
      | other _ _ _ => rfl
  | halt hkey =>
      rw [SlotTable.lookup_erase, Function.update_of_ne]
      rintro rfl
      exact hother hkey
  | unowned _ => rfl
  | store _ => rfl

/-- An entry that is new was admitted by the call, and an entry that was there stays as it was or is
gone. -/
theorem Served.lookup_some (hserved : Served host table call next)
    (hnext : next.lookup key = some sleep) :
    table.lookup key = some sleep ∨
      table.lookup key = none ∧ ∃ env request, call = .tick env request ∧
        Admission env host request key sleep := by
  by_cases hother : call.sleeper = some key
  · cases hserved with
    | tick _ htick =>
        rename_i env request _ _
        cases htick with
        | @sleep key' hsleep =>
            obtain rfl : key' = key := Option.some.inj (hsleep.sleeper.symm.trans hother)
            cases hlookup : table.lookup key' with
            | none =>
                obtain ⟨hpositive, hstarted, hduration⟩ :=
                  (sleepTick_lookup env host _ key' key').2.2 hlookup sleep hnext
                exact .inr ⟨rfl, env, request, rfl, hsleep, hpositive, hduration, hstarted⟩
            | some old =>
                refine .inl ?_
                unfold sleepTick at hnext
                rw [hlookup] at hnext
                dsimp only at hnext
                split at hnext
                · rwa [hlookup] at hnext
                split at hnext
                · rwa [hlookup] at hnext
                · rw [SlotTable.lookup_erase, Function.update_self] at hnext
                  cases hnext
        | other _ _ _ => exact .inl hnext
    | halt hkey =>
        obtain rfl := Option.some.inj (hkey.symm.trans hother)
        rw [SlotTable.lookup_erase, Function.update_self] at hnext
        cases hnext
    | unowned _ => exact .inl hnext
    | store _ => exact .inl hnext
  · rw [hserved.lookup_other hother] at hnext
    exact .inl hnext

end Calls

/-! ## Runs -/

/-- A host of which every slot is free. -/
def NativeHost.Rested (host : NativeHost Regex) : Prop :=
  ∀ state ∈ host.sleepStates, state.active = false

/-- The host after some calls. -/
abbrev after (host : NativeHost Regex) (calls : List (HostCall Number Regex)) : NativeHost Regex :=
  drive serve host calls

section Runs

variable {host : NativeHost Regex} {key : Sleeper} {sleep : Sleep}

theorem tabled_blank (hrested : host.Rested) :
    Tabled (SlotTable.blank host.sleepStates.length) host.sleepStates := by
  unfold Tabled slotEntries SlotTable.blank
  rw [List.map_eq_replicate_iff]
  intro state hstate
  rw [SleepState.entry, hrested state hstate]
  rfl

theorem after_tabled (hrested : host.Rested) (calls : List (HostCall Number Regex)) :
    ∃ table, Tabled table (after host calls).sleepStates ∧
      table.slots.length = host.sleepStates.length := by
  refine drive_invariant (fun reached : NativeHost Regex =>
    ∃ table, Tabled table reached.sleepStates ∧ table.slots.length = host.sleepStates.length)
    (fun reached call hreached => ?_) calls ⟨_, tabled_blank hrested, List.length_replicate⟩
  obtain ⟨table, htabled, hlength⟩ := hreached
  obtain ⟨next, hnext, hserved⟩ := serve_tabled call htabled
  exact ⟨next, hnext, hserved.length_eq.trans hlength⟩

theorem after_concat (calls : List (HostCall Number Regex)) (call : HostCall Number Regex) :
    after host (calls ++ [call]) = (serve (after host calls) call).1 := drive_append ..

/-- A slot that is taken was admitted by one of the calls and has been taken since. -/
theorem slot_admitted (hrested : host.Rested) (calls : List (HostCall Number Regex))
    (hslot : sleep.slot key ∈ (after host calls).sleepStates) :
    ∃ before env request later, calls = before ++ .tick env request :: later ∧
      (∀ other : Sleep, other.slot key ∉ (after host before).sleepStates) ∧
      Admission env (after host before) request key sleep ∧
      ∀ some, some <+: later →
        sleep.slot key ∈ (after host (before ++ .tick env request :: some)).sleepStates := by
  induction calls using List.reverseRecOn with
  | nil =>
      have hactive := hrested _ hslot
      cases hactive
  | append_singleton calls call ih =>
      obtain ⟨table, htabled, -⟩ := after_tabled hrested calls
      obtain ⟨next, hnext, hserved⟩ := serve_tabled call htabled
      rw [after_concat] at hslot
      have hlookup := hnext.lookup_iff.mpr hslot
      rcases hserved.lookup_some hlookup with hold | ⟨hmissing, env, request, rfl, hadmission⟩
      · obtain ⟨before, env, request, later, rfl, hfree, hadmission, hkept⟩ :=
          ih (htabled.lookup_iff.mp hold)
        refine ⟨before, env, request, later ++ [call], by simp, hfree, hadmission,
          fun some hsome => ?_⟩
        rcases List.prefix_concat_iff.mp hsome with rfl | hshorter
        · rw [← List.cons_append, ← List.append_assoc, after_concat]
          exact hslot
        · exact hkept some hshorter
      · refine ⟨calls, env, request, [], rfl, fun other hother => ?_, hadmission,
          fun some hsome => ?_⟩
        · rw [htabled.lookup_iff.mpr hother] at hmissing
          cases hmissing
        · obtain rfl := List.prefix_nil.mp hsome
          rw [after_concat]
          exact hslot

end Runs

/-! ## Requests -/

/-- A duration that does not fit the buffers: its text, or the key in its braces. -/
def TextTooLong (capacity : Nat) : Option (LeafValue Number) → Prop
  | some (.string (some text)) => capacity ≤ ((reference text).getD text).length
  | _ => False

section Requests

variable {env : Environment Number Regex} {host : NativeHost Regex} {request : LeafRequest Number}
  {key : Sleeper} {sleep : Sleep} {table : SlotTable Sleeper Sleep}

theorem nanoseconds_ne_enobufs (env : Environment Number Regex) (value : Number) :
    nanoseconds env value ≠ .error .enobufs := by
  unfold nanoseconds
  intro hcode
  cases hvalue : env.milliseconds value with
  | none =>
      rw [hvalue] at hcode
      cases hcode
  | some duration =>
      rw [hvalue] at hcode
      cases hcode

/-- A duration of which the text is at hand. -/
def spelledDuration (env : Environment Number Regex) (text : CString) : Except Salts Nat :=
  match env.strtod text with
  | none => .error .einval
  | some (value, unit) =>
      match unitFactor unit with
      | none => .error .einval
      | some factor => nanoseconds env (env.multiply value factor)

theorem spelledDuration_ne_enobufs (env : Environment Number Regex) (text : CString) :
    spelledDuration env text ≠ .error .enobufs := by
  unfold spelledDuration
  intro hcode
  split at hcode
  · cases hcode
  split at hcode
  · cases hcode
  · exact nanoseconds_ne_enobufs env _ hcode

/-- A duration is refused for want of room exactly when its text is too long. -/
theorem durationOf_enobufs (env : Environment Number Regex) (values : ValueStore) (capacity : Nat)
    (param : Option (LeafValue Number)) :
    durationOf env values capacity param = .error .enobufs ↔ TextTooLong capacity param := by
  have hmissing : (.error .einval : Except Salts Nat) ≠ .error .enobufs := by
    intro hcode
    cases hcode
  unfold durationOf TextTooLong
  cases param with
  | none => exact iff_of_false (nanoseconds_ne_enobufs env _) id
  | some param =>
  cases param with
  | boolean value => exact iff_of_false hmissing id
  | number value => exact iff_of_false (nanoseconds_ne_enobufs env _) id
  | string text =>
  cases text with
  | none => exact iff_of_false hmissing id
  | some text =>
      dsimp only
      unfold paramText
      dsimp only
      cases hkey : reference text with
      | none =>
          dsimp only [Option.getD]
          unfold copied
          by_cases hlong : text.length ≥ capacity
          · rw [if_pos hlong]
            exact iff_of_true rfl hlong
          · rw [if_neg hlong]
            exact iff_of_false (spelledDuration_ne_enobufs env text) hlong
      | some name =>
          dsimp only [Option.getD]
          by_cases hlong : name.length ≥ capacity
          · rw [if_pos hlong]
            exact iff_of_true rfl hlong
          · rw [if_neg hlong]
            refine iff_of_false ?_ hlong
            split
            · rename_i code hcode
              split at hcode
              · cases hcode
              · cases hcode
                exact hmissing
            · exact spelledDuration_ne_enobufs env _

/-- What a request for a Sleep answers, and what it leaves. -/
theorem tickLeaf_sleep (env : Environment Number Regex) (htabled : Tabled table host.sleepStates)
    (hsleep : request.SleepOf key) :
    (LeafM.on (tickLeaf env request) host).1 = (sleepTick env host.values host.scratchCapacity
        (parameter request "duration") key table).1 ∧
      Tabled (sleepTick env host.values host.scratchCapacity (parameter request "duration") key
        table).2 (LeafM.on (tickLeaf env request) host).2.sleepStates := by
  have htick : LeafM.on (tickLeaf env request) host = LeafM.on (tickSleep env request) host := by
    unfold tickLeaf
    rw [hsleep.admitted.1, if_neg Bool.false_ne_true, hsleep.admitted.2,
      if_neg (by decide), if_pos hsleep.action]
  rw [htick]
  exact tickSleep_tabled env htabled hsleep.sleeper

theorem put_eq_none_iff (sleep : Sleep) (htabled : Tabled table host.sleepStates)
    (hmissing : table.lookup key = none) :
    table.put key sleep = none ↔ ∀ state ∈ host.sleepStates, state.active = true := by
  have hput := htabled.put hmissing sleep
  cases hplaced : table.put key sleep with
  | none =>
      rw [hplaced] at hput
      refine iff_of_true rfl fun state hstate => ?_
      simpa using List.findIdx?_eq_none_iff.mp hput state hstate
  | some next =>
      rw [hplaced] at hput
      obtain ⟨place, hplace, -⟩ := hput
      refine iff_of_false nofun fun hall => ?_
      have hnone : host.sleepStates.findIdx? (fun state => !state.active) = none := by
        rw [List.findIdx?_eq_none_iff]
        exact fun state hstate => by simp [hall state hstate]
      rw [hnone] at hplace
      cases hplace

/-- A Sleep that is new is refused for want of room exactly when its text is too long, or when it
has to wait and no slot is free. -/
theorem sleep_refused (htabled : Tabled table host.sleepStates) (hsleep : request.SleepOf key)
    (hmissing : table.lookup key = none) :
    (LeafM.on (tickLeaf env request) host).1 = .error .enobufs ↔
      TextTooLong host.scratchCapacity (parameter request "duration") ∨
        ∃ duration, 0 < duration ∧
          durationOf env host.values host.scratchCapacity (parameter request "duration") =
            .ok duration ∧
          ∀ state ∈ host.sleepStates, state.active = true := by
  rw [(tickLeaf_sleep env htabled hsleep).1, ← durationOf_enobufs env host.values]
  unfold sleepTick
  rw [hmissing]
  dsimp only
  cases durationOf env host.values host.scratchCapacity (parameter request "duration") with
  | error code =>
      refine ⟨fun hcode => .inl (congrArg Except.error (Except.error.inj hcode)),
        fun hrefused => ?_⟩
      rcases hrefused with hcode | ⟨duration, -, hduration, -⟩
      · exact congrArg Except.error (Except.error.inj hcode)
      · cases hduration
  | ok duration =>
      dsimp only
      by_cases hzero : duration = 0
      · rw [if_pos hzero]
        refine iff_of_false nofun fun hrefused => ?_
        rcases hrefused with hcode | ⟨positive, hpositive, hduration, -⟩
        · cases hcode
        · obtain rfl := Except.ok.inj hduration
          exact hpositive.ne' hzero
      rw [if_neg hzero]
      have hfull := put_eq_none_iff ⟨env.now, duration⟩ htabled hmissing
      cases hput : table.put key ⟨env.now, duration⟩ with
      | none =>
          refine iff_of_true rfl (.inr ⟨duration, Nat.pos_of_ne_zero hzero, rfl, ?_⟩)
          exact hfull.mp hput
      | some next =>
          refine iff_of_false nofun fun hrefused => ?_
          rcases hrefused with hcode | ⟨positive, -, -, hall⟩
          · cases hcode
          · rw [hfull.mpr hall] at hput
            cases hput

/-- Two taken slots of one leaf are one slot. -/
theorem Tabled.apart (htabled : Tabled table host.sleepStates) {i j : Nat}
    {first second : SleepState} (hfirst : host.sleepStates[i]? = some first)
    (hsecond : host.sleepStates[j]? = some second) (hactive : first.active = true)
    (hother : second.active = true) (howner : first.sessionOwner = second.sessionOwner)
    (hnode : first.nodeIndex = second.nodeIndex) : i = j := by
  have hdistinct := table.distinct
  rw [← htabled, SlotTable.keysOf, slotEntries, List.filterMap_map, List.Nodup,
    List.pairwise_filterMap, List.pairwise_iff_getElem] at hdistinct
  have hclash : ∀ {place later : Nat} {one two : SleepState}, place < later →
      host.sleepStates[place]? = some one → host.sleepStates[later]? = some two →
      one.active = true → two.active = true → one.sessionOwner = two.sessionOwner →
      one.nodeIndex = two.nodeIndex → False := by
    intro place later one two hlt hone htwo hactive hother howner hnode
    obtain ⟨hplace, rfl⟩ := List.getElem?_eq_some_iff.mp hone
    obtain ⟨hlater, rfl⟩ := List.getElem?_eq_some_iff.mp htwo
    let key : Sleeper := (host.sleepStates[later].sessionOwner, host.sleepStates[later].nodeIndex)
    refine hdistinct place later hplace hlater hlt key ?_ key ?_ rfl
    · simp [SleepState.entry, hactive, howner, hnode, key]
    · simp [SleepState.entry, hother, key]
  rcases Nat.lt_trichotomy i j with hlt | heq | hlt
  · exact (hclash hlt hfirst hsecond hactive hother howner hnode).elim
  · exact heq
  · exact (hclash hlt hsecond hfirst hother hactive howner.symm hnode.symm).elim

end Requests

/-! ## Isolation -/

/-- The sleeping leaves of a host do not disturb each other, in any run of calls.  The slots that are
taken are those of the form `sleep.slot key`. -/
structure HostSleeps (Number : Type) (host : NativeHost Regex) : Prop where
  bounded : ∀ calls : List (HostCall Number Regex),
    (after host calls).sleepStates.length = host.sleepStates.length ∧
      ((after host calls).sleepStates.filter SleepState.active).length ≤ host.sleepStates.length
  apart : ∀ (calls : List (HostCall Number Regex)) (i j : Nat) (first second : SleepState),
    (after host calls).sleepStates[i]? = some first →
    (after host calls).sleepStates[j]? = some second → first.active = true →
    second.active = true → first.sessionOwner = second.sessionOwner →
    first.nodeIndex = second.nodeIndex → i = j
  /-- A call moves no slot but that of its own leaf. -/
  own : ∀ (calls : List (HostCall Number Regex)) (call : HostCall Number Regex) (key : Sleeper)
    (sleep : Sleep), call.sleeper ≠ some key →
    (sleep.slot key ∈ (after host (calls ++ [call])).sleepStates ↔
      sleep.slot key ∈ (after host calls).sleepStates)
  /-- A slot has the duration that was read when it was admitted, and it has had it since. -/
  admitted : ∀ (calls : List (HostCall Number Regex)) (key : Sleeper) (sleep : Sleep),
    sleep.slot key ∈ (after host calls).sleepStates →
    ∃ before env request later, calls = before ++ .tick env request :: later ∧
      (∀ other : Sleep, other.slot key ∉ (after host before).sleepStates) ∧
      Admission env (after host before) request key sleep ∧
      ∀ some, some <+: later →
        sleep.slot key ∈ (after host (before ++ .tick env request :: some)).sleepStates
  resumed : ∀ (calls : List (HostCall Number Regex)) (env : Environment Number Regex)
    (request : LeafRequest Number) (key : Sleeper) (sleep : Sleep), request.SleepOf key →
    sleep.slot key ∈ (after host calls).sleepStates →
    (env.now < sleep.startedNs →
      (serve (after host calls) (.tick env request)).2 = some (.error .einval) ∧
        sleep.slot key ∈ (after host (calls ++ [.tick env request])).sleepStates) ∧
    (sleep.startedNs ≤ env.now → env.now - sleep.startedNs < sleep.durationNs →
      (serve (after host calls) (.tick env request)).2 = some (.ok .running) ∧
        sleep.slot key ∈ (after host (calls ++ [.tick env request])).sleepStates) ∧
    (sleep.startedNs ≤ env.now → sleep.durationNs ≤ env.now - sleep.startedNs →
      (serve (after host calls) (.tick env request)).2 = some (.ok .success) ∧
        ∀ other : Sleep, other.slot key ∉
          (after host (calls ++ [.tick env request])).sleepStates)
  /-- A leaf that does not sleep yet is refused for want of room exactly when its duration does not
  fit the buffers, or when it has to wait and every slot is taken. -/
  full : ∀ (calls : List (HostCall Number Regex)) (env : Environment Number Regex)
    (request : LeafRequest Number) (key : Sleeper), request.SleepOf key →
    (∀ sleep : Sleep, sleep.slot key ∉ (after host calls).sleepStates) →
    ((serve (after host calls) (.tick env request)).2 = some (.error .enobufs) ↔
      TextTooLong (after host calls).scratchCapacity (parameter request "duration") ∨
        ∃ duration, 0 < duration ∧
          durationOf env (after host calls).values (after host calls).scratchCapacity
            (parameter request "duration") = .ok duration ∧
          ∀ state ∈ (after host calls).sleepStates, state.active = true)

theorem host_sleeps {host : NativeHost Regex} (hrested : host.Rested) :
    HostSleeps Number host where
  bounded calls := by
    obtain ⟨table, htabled, hlength⟩ := after_tabled hrested calls
    have hsame : (after host calls).sleepStates.length = host.sleepStates.length :=
      htabled.length_eq.symm.trans hlength
    exact ⟨hsame, (List.length_filter_le _ _).trans hsame.le⟩
  apart calls i j first second hfirst hsecond hactive hother howner hnode := by
    obtain ⟨table, htabled, -⟩ := after_tabled hrested calls
    exact htabled.apart hfirst hsecond hactive hother howner hnode
  own calls call key sleep hother := by
    obtain ⟨table, htabled, -⟩ := after_tabled hrested calls
    obtain ⟨next, hnext, hserved⟩ := serve_tabled call htabled
    rw [after_concat, ← hnext.lookup_iff, ← htabled.lookup_iff, hserved.lookup_other hother]
  admitted calls key sleep hslot := slot_admitted hrested calls hslot
  resumed calls env request key sleep hsleep hslot := by
    obtain ⟨table, htabled, -⟩ := after_tabled hrested calls
    obtain ⟨hanswer, hnext⟩ := tickLeaf_sleep env htabled hsleep
    have hlookup := htabled.lookup_iff.mpr hslot
    rw [after_concat]
    show (_ → some _ = _ ∧ _) ∧ (_ → _ → some _ = _ ∧ _) ∧ (_ → _ → some _ = _ ∧ _)
    unfold sleepTick at hanswer hnext
    rw [hlookup] at hanswer hnext
    dsimp only at hanswer hnext
    refine ⟨fun hbefore => ?_, fun hle hshort => ?_, fun hle hlong => ?_⟩
    · rw [if_pos hbefore] at hanswer hnext
      exact ⟨congrArg some hanswer, hnext.lookup_iff.mp hlookup⟩
    · rw [if_neg (Nat.not_lt.mpr hle), if_pos hshort] at hanswer hnext
      exact ⟨congrArg some hanswer, hnext.lookup_iff.mp hlookup⟩
    · rw [if_neg (Nat.not_lt.mpr hle), if_neg (Nat.not_lt.mpr hlong)] at hanswer hnext
      refine ⟨congrArg some hanswer, fun other hother => ?_⟩
      have hnone := hnext.lookup_iff.mpr hother
      rw [SlotTable.lookup_erase, Function.update_self] at hnone
      cases hnone
  full calls env request key hsleep hfree := by
    obtain ⟨table, htabled, -⟩ := after_tabled hrested calls
    have hmissing : table.lookup key = none := by
      cases hlookup : table.lookup key with
      | none => rfl
      | some sleep => exact absurd (htabled.lookup_iff.mp hlookup) (hfree sleep)
    rw [← sleep_refused htabled hsleep hmissing]
    exact Option.some_inj

/-- A host of which both slots are free. -/
def restedHost : NativeHost Unit where
  values := .blank ⟨4, 32, 32⟩ (by decide)
  scratchCapacity := 16
  scratch _ := CString.literal ""
  pairCapacity := 1
  sleepStates := List.replicate 2 .free
  regexCache := []

theorem restedHost_rested : restedHost.Rested := by
  intro state hstate
  rw [List.eq_of_mem_replicate hstate]
  rfl

theorem restedHost_sleeps : HostSleeps Nat restedHost := host_sleeps restedHost_rested

end Praktor.Native
