/-
# Text values of a workflow run

The runtime seeds one root store from the variables of the workflow.  Each task works
on a scope of its own, a copy of the root with the variables of the task on top, and
the only way back to the root is a transaction over the ports the runtime selected.
-/

import Praktor.Values.Ledger
import Praktor.Workflow.Snapshot

namespace Praktor.Runtime

open Praktor.Data Praktor.Math Praktor.Values Praktor.Workflow

/-- `PRAKTOR_C11_WORKFLOW_MAX_ROOT_VARIABLES`. -/
def maxRootVariables : Nat := 4096

/-- `PRAKTOR_C11_WORKFLOW_MAX_TEXT_OUTPUTS`. -/
def maxTextOutputs : Nat := 128

/-- `PRAKTOR_C11_WORKFLOW_MAX_TEXT_OUTPUT_BYTES`. -/
def maxTextOutputBytes : Nat := 1024 * 1024

/-! ## Seeding -/

/-- The writes of `seed_text_object`: every member must be text under a non-empty
key, neither with a NUL. -/
def seedWrites : List (Bytes × Json) → Option (List (Option CString × Option CString))
  | [] => some []
  | (key, entry) :: rest =>
      match CString.ofBytes key, entry.stringText.bind CString.ofBytes with
      | some text, some value =>
          if key.length = 0 then none
          else (seedWrites rest).map ((some text, some value) :: ·)
      | _, _ => none

/-- `seed_text_object`; no object is an empty one. -/
def seedTextObject (map : Option Json) (store : ValueStore) (schedule : AllocSchedule) :
    (ValueStore × ValueStatus) × AllocSchedule :=
  match map with
  | none => (store.setMany [], schedule)
  | some (.object members) =>
      if members.length > maxRootVariables then ((store, .enospc), schedule)
      else if members.length = 0 then (store.setMany [], schedule)
      else
        match schedule.alloc with
        | (none, schedule) => ((store, .enomem), schedule)
        | (some _, schedule) =>
            match seedWrites members with
            | none => ((store, .einval), schedule)
            | some writes => (store.setMany writes, schedule)
  | some _ => ((store, .einval), schedule)

/-- A JSON document is an object. -/
def isObject : Json → Bool
  | .object _ => true
  | _ => false

/-- `praktor_c11_workflow_seed_root_text_variables`. -/
def seedRootTextVariables (snapshot : WorkflowSnapshot) (store : ValueStore)
    (schedule : AllocSchedule) : (ValueStore × ValueStatus) × AllocSchedule :=
  if isObject snapshot.metadata then
    seedTextObject (snapshot.metadata.objectGet (ascii "variables")) store schedule
  else ((store, .einval), schedule)

/-! ## Scopes -/

/-- `praktor_c11_workflow_fork_task_text_variables`. -/
def forkTaskTextVariables (task : SnapshotTask) (root : ValueStore) (schedule : AllocSchedule) :
    Except ValueStatus ValueStore × AllocSchedule :=
  if isObject task.metadata then
    match root.clone schedule with
    | (.error status, schedule) => (.error status, schedule)
    | (.ok staging, schedule) =>
        match seedTextObject (task.metadata.objectGet (ascii "vars")) staging schedule with
        | ((child, status), schedule) =>
            if status = .ok then (.ok child, schedule) else (.error status, schedule)
  else (.error .einval, schedule)

/-- `praktor_c11_value_store_replace_clone`: the new contents of the destination. -/
def replaceClone (destination source : ValueStore) (schedule : AllocSchedule) :
    Except ValueStatus ValueStore × AllocSchedule :=
  if destination.limits ≠ source.limits then (.error .einval, schedule)
  else source.clone schedule

/-- `praktor_c11_workflow_load_task_text_scope`: the new contents of the scope. -/
def loadTaskTextScope (task : SnapshotTask) (root destination : ValueStore)
    (schedule : AllocSchedule) : Except ValueStatus ValueStore × AllocSchedule :=
  match forkTaskTextVariables task root schedule with
  | (.error status, schedule) => (.error status, schedule)
  | (.ok staged, schedule) => replaceClone destination staged schedule

/-! ## Selected outputs -/

/-- One port of `praktor_c11_workflow_prepare_task_text_outputs`, with `retained`
bytes copied before: measure the text, copy it, write it to the transaction. -/
def prepareOutput (world : World) (txn : Nat) (scope : ValueStore) (key : CString)
    (retained : Nat) (schedule : AllocSchedule) : World × ValueStatus × Nat × AllocSchedule :=
  match scope.get (some key) none with
  | (.enobufs, some size, _) =>
      if size ≥ maxTextOutputBytes - retained then (world, .enobufs, retained, schedule)
      else
        match schedule.alloc with
        | (none, schedule) => (world, .enomem, retained, schedule)
        | (some _, schedule) =>
            match scope.get (some key) (some (size + 1)) with
            | (.ok, some readSize, some copy) =>
                if readSize = size then
                  let (next, status) :=
                    world.onTxn txn fun current => current.set (some key) (some copy)
                  (next, status, retained + (size + 1), schedule)
                else (world, .einval, retained, schedule)
            | (status, _, _) => (world, status, retained, schedule)
  | (status, _, _) => (world, status, retained, schedule)

/-- The port loop of `praktor_c11_workflow_prepare_task_text_outputs`. -/
def prepareOutputs (txn : Nat) (scope : ValueStore) :
    List CString → World → Nat → AllocSchedule → World × ValueStatus × AllocSchedule
  | [], world, _, schedule => (world, .ok, schedule)
  | key :: rest, world, retained, schedule =>
      match prepareOutput world txn scope key retained schedule with
      | (world, status, retained, schedule) =>
          if status ≠ .ok then (world, status, schedule)
          else prepareOutputs txn scope rest world retained schedule

/-- `praktor_c11_workflow_prepare_task_text_outputs` on the root store behind `root`,
into the unused transaction handle `txn`. -/
def prepareTaskTextOutputs (world : World) (txn root : Nat) (scope : ValueStore)
    (keys : List CString) (schedule : AllocSchedule) : World × ValueStatus × AllocSchedule :=
  if keys.length = 0 then (world, .einval, schedule)
  else if keys.length > maxTextOutputs then (world, .enospc, schedule)
  else if keys.any (fun key => key.length = 0) || !decide keys.Nodup then (world, .einval, schedule)
  else
    match world.txnBegin txn root schedule with
    | (begun, status, schedule) =>
        if status ≠ .ok then (world, status, schedule)
        else
          match prepareOutputs txn scope keys begun 0 schedule with
          | (staged, status, schedule) =>
              if status ≠ .ok then (staged.txnAbort txn, status, schedule)
              else (staged, .ok, schedule)

/-! ## What a prepared transaction holds -/

/-- The ports as writes: each key with the text the scope has for it. -/
def portWrites (scope : ValueStore) (keys : List CString) : List (CString × Option CString) :=
  keys.map fun key => (key, scope.findEntry key)

theorem touchedBy_portWrites (scope : ValueStore) (keys : List CString) :
    touchedBy (portWrites scope keys) = keys := by
  simp [touchedBy, portWrites, Function.comp_def]

/-- `after` is `before` with one live transaction on the store behind `root`, which
implements `snapshot`. -/
structure Drafted (before : World) (txn root : Nat) (snapshot : TextSnapshot) (after : World) :
    Prop where
  stores_eq : after.stores = before.stores
  others_eq : ∀ id, id ≠ txn → after.txns id = before.txns id
  live : ∃ draft store, after.txns txn = some draft ∧ draft.target = root ∧
    before.stores root = some store ∧ store.limits = draft.baseline.limits ∧
    Represents draft snapshot

namespace Drafted

variable {before after : World} {txn root : Nat} {snapshot : TextSnapshot}

/-- Aborting a draft leads back to where it began. -/
theorem abort (hdrafted : Drafted before txn root snapshot after) (hfree : before.txns txn = none) :
    after.txnAbort txn = before := by
  refine World.ext hdrafted.stores_eq (funext fun id => ?_)
  by_cases hid : id = txn
  · simp [World.txnAbort, World.withTxn, hid, hfree]
  · simpa [World.txnAbort, World.withTxn, hid] using hdrafted.others_eq id hid

/-- A draft in a world without other transactions is recorded by a sound ledger. -/
theorem sound (hdrafted : Drafted before txn root snapshot after)
    (hquiet : ∀ id, before.txns id = none) :
    Ledger.Sound ⟨after, Function.update (fun _ => none) txn (some (root, snapshot))⟩ := by
  obtain ⟨draft, store, hdraft, rfl, hstore, hlimits, hrepresents⟩ := hdrafted.live
  refine ⟨fun id found hfound => ?_, fun id hnone => ?_⟩
  · have hid : id = txn := by
      by_contra hne
      rw [hdrafted.others_eq id hne, hquiet id] at hfound
      contradiction
    subst hid
    obtain rfl : draft = found := by simpa [hdraft] using hfound
    exact ⟨snapshot, store, by simp, hrepresents, by rw [hdrafted.stores_eq, hstore], hlimits⟩
  · have hid : id ≠ txn := by
      rintro rfl
      simp [hdraft] at hnone
    simp [hid]

/-- A transactional set that is answered with `OK` extends the draft; any other one
leaves it alone. -/
theorem set (hdrafted : Drafted before txn root snapshot after) (key value : CString) :
    (((after.onTxn txn fun current => current.set (some key) (some value)).2 = .ok ∧
        Drafted before txn root (snapshot.write key (some value))
          (after.onTxn txn fun current => current.set (some key) (some value)).1) ∨
      ((after.onTxn txn fun current => current.set (some key) (some value)).2 ≠ .ok ∧
        Drafted before txn root snapshot
          (after.onTxn txn fun current => current.set (some key) (some value)).1)) := by
  obtain ⟨draft, store, hdraft, htarget, hstore, hlimits, hrepresents⟩ := hdrafted.live
  have hothers (next : ValueTxn) (id : Nat) (hid : id ≠ txn) :
      (after.withTxn txn (some next)).txns id = before.txns id := by
    simpa [World.withTxn, hid] using hdrafted.others_eq id hid
  simp only [World.onTxn, hdraft]
  rcases hrepresents.set (some key) (some value) with
    ⟨hrefused, hsame⟩ | ⟨newKey, newValue, hkey, hvalue, hok, hsameTarget, hbaseline, hnext⟩
  · refine .inr ⟨hrefused, hdrafted.stores_eq, hothers _, ?_⟩
    rw [hsame]
    exact ⟨draft, store, by simp [World.withTxn], htarget, hstore, hlimits, hrepresents⟩
  · rw [Option.some.injEq] at hkey hvalue
    subst hkey hvalue
    exact .inl ⟨hok, hdrafted.stores_eq, hothers _, _, store, by simp [World.withTxn],
      hsameTarget.trans htarget, hstore, by rw [hbaseline, hlimits], hnext⟩

end Drafted

theorem get_without_buffer_ne (scope : ValueStore) (key : CString) :
    (scope.get (some key) none).1 ≠ .ok := by
  simp only [ValueStore.get]
  split
  · split <;> simp
  · simp

/-- Reading a key without a buffer and then with one of the right size. -/
theorem get_twice {scope : ValueStore} {key : CString} {size : Nat} {text : Option CString}
    (hget : scope.get (some key) none = (.enobufs, some size, text)) :
    ∃ value, scope.findEntry key = some value ∧
      scope.get (some key) (some (size + 1)) = (.ok, some size, some value) := by
  simp only [ValueStore.get] at hget ⊢
  split at hget
  · rename_i hadmits
    cases hfound : scope.findEntry key with
    | none => simp [hfound] at hget
    | some value =>
        simp only [hfound, Prod.mk.injEq, Option.some.injEq, true_and] at hget
        refine ⟨value, rfl, ?_⟩
        simp [hadmits, ← hget.1]
  · simp at hget

/-- One port either extends the draft by its text or leaves it alone. -/
theorem prepareOutput_cases {before after : World} {txn root : Nat} {snapshot : TextSnapshot}
    (hdrafted : Drafted before txn root snapshot after) (scope : ValueStore) (key : CString)
    (retained : Nat) (schedule : AllocSchedule) :
    ((prepareOutput after txn scope key retained schedule).2.1 = .ok ∧
      (scope.findEntry key).isSome = true ∧
      Drafted before txn root (snapshot.write key (scope.findEntry key))
        (prepareOutput after txn scope key retained schedule).1) ∨
    ((prepareOutput after txn scope key retained schedule).2.1 ≠ .ok ∧
      Drafted before txn root snapshot
        (prepareOutput after txn scope key retained schedule).1) := by
  rw [prepareOutput]
  split
  · rename_i size _ hget
    obtain ⟨value, hfound, hread⟩ := get_twice hget
    split
    · exact .inr ⟨by simp, hdrafted⟩
    split
    · exact .inr ⟨by simp, hdrafted⟩
    · simp only [hread, if_true, hfound, Option.isSome_some, true_and]
      exact hdrafted.set key value
  · rename_i status _ _ _ hget
    have hne := get_without_buffer_ne scope key
    rw [hget] at hne
    exact .inr ⟨hne, hdrafted⟩

theorem prepareOutputs_spec (scope : ValueStore) {before : World} {txn root : Nat} :
    ∀ (keys : List CString) (after : World) (snapshot : TextSnapshot) (retained : Nat)
      (schedule : AllocSchedule), Drafted before txn root snapshot after →
    ∃ written, Drafted before txn root written
        (prepareOutputs txn scope keys after retained schedule).1 ∧
      ((prepareOutputs txn scope keys after retained schedule).2.1 = .ok →
        written = snapshot.writeAll (portWrites scope keys) ∧
        ∀ key ∈ keys, (scope.findEntry key).isSome = true) := by
  intro keys
  induction keys with
  | nil => exact fun after snapshot _ _ hdrafted => ⟨snapshot, hdrafted, fun _ => ⟨rfl, by simp⟩⟩
  | cons key rest ih =>
      intro after snapshot retained schedule hdrafted
      have hcases := prepareOutput_cases hdrafted scope key retained schedule
      rw [prepareOutputs]
      split
      rename_i world status copied rest' hport
      rw [hport] at hcases
      rcases hcases with ⟨hok, hfound, hnext⟩ | ⟨hrefused, hnext⟩
      · rw [if_neg (not_not.mpr hok)]
        obtain ⟨written, hwritten, hdone⟩ := ih world _ copied rest' hnext
        refine ⟨written, hwritten, fun hstatus => ?_⟩
        obtain ⟨hequal, hall⟩ := hdone hstatus
        exact ⟨hequal, by simpa [hfound] using hall⟩
      · rw [if_pos hrefused]
        exact ⟨snapshot, hnext, fun hok => absurd hok hrefused⟩

theorem clone_error_ne {source : ValueStore} {schedule rest : AllocSchedule} {status : ValueStatus}
    (hclone : source.clone schedule = (.error status, rest)) : status ≠ .ok := by
  rcases source.clone_cases schedule with hcase | hcase <;> simp [hclone] at hcase
  simp [hcase]

theorem clone_ok_eq {source copy : ValueStore} {schedule rest : AllocSchedule}
    (hclone : source.clone schedule = (.ok copy, rest)) : copy = source := by
  rcases source.clone_cases schedule with hcase | hcase <;> simp [hclone] at hcase
  exact hcase

/-- A begin that is answered with `OK` opens a draft; any other one does nothing. -/
theorem txnBegin_cases {world : World} {txn root : Nat} {store : ValueStore}
    (hfree : world.txns txn = none) (hstore : world.stores root = some store)
    (schedule : AllocSchedule) :
    ((world.txnBegin txn root schedule).2.1 = .ok ∧
      Drafted world txn root (.opened store.findEntry) (world.txnBegin txn root schedule).1) ∨
    (world.txnBegin txn root schedule).2.1 ≠ .ok := by
  have hopened : Drafted world txn root (.opened store.findEntry) (world.withTxn txn
      (some ⟨root, store, store, store.limits.capacity, []⟩)) :=
    ⟨rfl, fun id hid => by simp [World.withTxn, hid],
      _, store, by simp [World.withTxn], rfl, hstore, rfl, Represents.opened root store⟩
  rw [World.txnBegin, hfree, hstore]
  simp only
  split
  · exact .inr (by simp)
  split
  · exact .inr (by simp)
  split
  · rename_i hclone
    exact .inr (clone_error_ne hclone)
  rename_i baseline rest hbaseline
  split
  · rename_i hclone
    exact .inr (clone_error_ne hclone)
  rename_i working _ hworking
  rw [clone_ok_eq hbaseline, clone_ok_eq hworking]
  exact .inl ⟨rfl, hopened⟩

/-- A preparation drafts exactly the selected ports, or does nothing. -/
theorem prepareTaskTextOutputs_spec {world : World} {txn root : Nat} {store : ValueStore}
    (hfree : world.txns txn = none) (hstore : world.stores root = some store) (scope : ValueStore)
    (keys : List CString) (schedule : AllocSchedule) :
    ((prepareTaskTextOutputs world txn root scope keys schedule).2.1 = .ok →
      keys.Nodup ∧ (∀ key ∈ keys, (scope.findEntry key).isSome = true) ∧
      Drafted world txn root ((Snapshot.opened store.findEntry).writeAll (portWrites scope keys))
        (prepareTaskTextOutputs world txn root scope keys schedule).1) ∧
    ((prepareTaskTextOutputs world txn root scope keys schedule).2.1 ≠ .ok →
      (prepareTaskTextOutputs world txn root scope keys schedule).1 = world) := by
  rw [prepareTaskTextOutputs]
  split
  · exact ⟨by simp, fun _ => rfl⟩
  split
  · exact ⟨by simp, fun _ => rfl⟩
  split
  · exact ⟨by simp, fun _ => rfl⟩
  rename_i hchecked
  have hnodup : keys.Nodup := by
    simp only [Bool.or_eq_true, not_or, Bool.not_eq_true', decide_eq_false_iff_not, not_not] at hchecked
    exact hchecked.2
  have hbegin := txnBegin_cases hfree hstore schedule
  split
  rename_i begun status rest hbegun
  rw [hbegun] at hbegin
  rcases hbegin with ⟨hok, hopened⟩ | hrefused
  · rw [if_neg (not_not.mpr hok)]
    obtain ⟨written, hwritten, hdone⟩ := prepareOutputs_spec scope keys begun _ 0 rest hopened
    split
    rename_i staged status rest' hstaged
    rw [hstaged] at hwritten hdone
    split
    · rename_i hfailed
      exact ⟨fun h => absurd h hfailed, fun _ => hwritten.abort hfree⟩
    · rename_i hstatus
      obtain ⟨rfl, hall⟩ := hdone (not_not.mp hstatus)
      exact ⟨fun _ => ⟨hnodup, hall, hwritten⟩, fun h => absurd rfl h⟩
  · rw [if_pos hrefused]
    exact ⟨fun h => absurd h hrefused, fun _ => rfl⟩

end Praktor.Runtime
