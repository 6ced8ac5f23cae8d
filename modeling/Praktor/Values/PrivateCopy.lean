/-
# A transaction against a private copy of its target

Until it commits, a transaction should behave like a store of its own.  It almost
does: its log has room for as many keys as the store has slots, and a key that was
set and erased again keeps its place in the log while its slot is free.  So there
are calls that a private store would accept and the log refuses.  The private copy
below carries the touched keys to say exactly which.
-/

import Praktor.Values.Ledger

namespace Praktor.Values

open Praktor.Data Praktor.Math

/-- A write call on a store or on a transaction. -/
inductive TextCall
  | set (key value : Option CString)
  | erase (key : Option CString)

namespace TextCall

/-- The key argument of a call. -/
def key : TextCall → Option CString
  | set key _ => key
  | erase key => key

/-- The call on the transaction behind a handle. -/
def request (id : Nat) : TextCall → ValueRequest
  | set key value => .txnSet id key value
  | erase key => .txnErase id key

end TextCall

/-- The call on a store. -/
def ValueStore.call (store : ValueStore) : TextCall → ValueStore × ValueStatus
  | .set key value => store.set key value
  | .erase key => store.erase key

/-- The call on a transaction. -/
def ValueTxn.call (txn : ValueTxn) : TextCall → ValueTxn × ValueStatus
  | .set key value => txn.set key value
  | .erase key => txn.erase key

/-- A private store together with the keys its accepted calls have touched. -/
structure PrivateCopy where
  store : ValueStore
  touched : List CString

namespace PrivateCopy

/-- A copy nothing has been written to. -/
def fresh (store : ValueStore) : PrivateCopy := ⟨store, []⟩

/-- No further key can be logged, and the call names one. -/
def refuses (copy : PrivateCopy) (call : TextCall) : Bool :=
  match call.key with
  | none => false
  | some key => key ∉ copy.touched && copy.touched.length ≥ copy.store.limits.capacity

/-- The call on the private store, with the one exception: what the store would
accept is refused and ignored when its key is new to a full log. -/
def call (copy : PrivateCopy) (call : TextCall) : PrivateCopy × ValueStatus :=
  let (store, status) := copy.store.call call
  if status ≠ .ok then (copy, status)
  else if copy.refuses call then (copy, .enospc)
  else (⟨store, (call.key.map (Snapshot.touch copy.touched)).getD copy.touched⟩, .ok)

end PrivateCopy

/-- The store and the log of a transaction, as a private copy. -/
structure CopyOf (txn : ValueTxn) (copy : PrivateCopy) : Prop where
  store_eq : txn.working = copy.store
  touched_eq : txn.keys = copy.touched
  capacity_eq : txn.opCapacity = copy.store.limits.capacity

/-- What a store accepts has a key, what it refuses changes nothing, and the
limits stay. -/
theorem ValueStore.call_spec (store : ValueStore) (call : TextCall) :
    (store.call call).1.limits = store.limits ∧
      ((store.call call).2 ≠ .ok → (store.call call).1 = store) ∧
      ((store.call call).2 = .ok → ∃ key, call.key = some key) := by
  cases call with
  | set key value =>
      have hspec := store.set_spec key value
      refine ⟨hspec.limits_eq, hspec.unchanged, fun hok => ?_⟩
      obtain ⟨newKey, _, rfl, _⟩ := hspec.updated hok
      exact ⟨newKey, rfl⟩
  | erase key =>
      have hspec := store.erase_spec key
      refine ⟨hspec.limits_eq, hspec.unchanged, fun hok => ?_⟩
      obtain ⟨oldKey, rfl, _⟩ := hspec.updated hok
      exact ⟨oldKey, rfl⟩

/-- A transaction passes a call on to its working copy and logs the key. -/
theorem ValueTxn.call_eq (txn : ValueTxn) (call : TextCall) :
    txn.call call =
      if (txn.working.call call).2 = .ok then
        match call.key with
        | none => (txn, .einval)
        | some key =>
            if txn.logAdmits key then
              ({ txn with ops := txn.logged key, working := (txn.working.call call).1 }, .ok)
            else (txn, .enospc)
      else (txn, (txn.working.call call).2) := by
  cases call with
  | set key value =>
      rw [ValueTxn.call, ValueTxn.set_eq]
      cases key <;> rfl
  | erase key =>
      rw [ValueTxn.call, ValueTxn.erase_eq]
      cases key <;> rfl

/-- One call on a transaction and on its private copy. -/
theorem CopyOf.call {txn : ValueTxn} {copy : PrivateCopy} (hcopy : CopyOf txn copy)
    (call : TextCall) :
    CopyOf (txn.call call).1 (copy.call call).1 ∧ (txn.call call).2 = (copy.call call).2 := by
  obtain ⟨store, touched⟩ := copy
  obtain ⟨hstore, htouched, hcapacity⟩ := hcopy
  obtain rfl : txn.working = store := hstore
  obtain rfl : txn.keys = touched := htouched
  obtain ⟨hlimits, _, hkeyed⟩ := txn.working.call_spec call
  rw [ValueTxn.call_eq]
  by_cases hok : (txn.working.call call).2 = .ok
  · obtain ⟨key, hkey⟩ := hkeyed hok
    have hlength : txn.ops.length = txn.keys.length := by simp [ValueTxn.keys]
    by_cases hlog : txn.logAdmits key = true
    · have hadmitted : PrivateCopy.refuses ⟨txn.working, txn.keys⟩ call = false := by
        simp only [ValueTxn.logAdmits, Bool.or_eq_true, decide_eq_true_eq] at hlog
        simp only [PrivateCopy.refuses, hkey, Bool.and_eq_false_imp, decide_eq_true_eq,
          decide_eq_false_iff_not]
        intro hfresh
        have hroom := hlog.resolve_left hfresh
        simp only at hcapacity
        omega
      simp only [PrivateCopy.call, hok, hkey, hlog, hadmitted, if_true, ne_eq, not_true_eq_false,
        if_false, Bool.false_eq_true, Option.map_some, Option.getD_some, and_true]
      exact ⟨rfl, Represents.keys_logged txn key, by simpa [hlimits] using hcapacity⟩
    · have hrefused : PrivateCopy.refuses ⟨txn.working, txn.keys⟩ call = true := by
        simp only [ValueTxn.logAdmits, Bool.or_eq_true, decide_eq_true_eq, not_or] at hlog
        simp only [PrivateCopy.refuses, hkey, Bool.and_eq_true, decide_eq_true_eq]
        simp only at hcapacity
        exact ⟨hlog.1, by omega⟩
      simp only [PrivateCopy.call, hok, hkey, hlog, hrefused, if_true, ne_eq, not_true_eq_false,
        if_false, Bool.false_eq_true, and_true]
      exact ⟨rfl, rfl, hcapacity⟩
  · simp only [PrivateCopy.call, hok, ne_eq, not_false_eq_true, if_true, if_false, and_true]
    exact ⟨rfl, rfl, hcapacity⟩

/-- A store runs out of space only for a new key when it is full. -/
theorem ValueStore.call_enospc {store : ValueStore} {call : TextCall}
    (hstatus : (store.call call).2 = .enospc) :
    ∃ key, call.key = some key ∧ store.findEntry key = none ∧
      store.size ≥ store.limits.capacity := by
  cases call with
  | set key value =>
      rw [ValueStore.call, ValueStore.set.eq_def] at hstatus
      split at hstatus
      · rename_i key value
        split at hstatus
        · contradiction
        split at hstatus
        · contradiction
        · rename_i hempty hlong
          obtain ⟨hkey, hvalue⟩ := fits_of_lengths hempty hlong
          refine ⟨key, rfl, (store.put_eq_none_iff key value).mp ?_⟩
          rcases ValueStore.insert_cases hkey hvalue with ⟨hfull, _⟩ | ⟨next, _, _, hinsert⟩
          · exact hfull
          · rw [hinsert] at hstatus
            contradiction
      · contradiction
  | erase key =>
      rw [ValueStore.call, ValueStore.erase.eq_def] at hstatus
      split at hstatus
      · contradiction
      · split at hstatus
        · split at hstatus <;> contradiction
        · contradiction

namespace PrivateCopy

/-- While the keys of all calls together fit the log, the copy answers like its store. -/
theorem answers_eq_store (named : List CString) :
    ∀ (calls : List TextCall) (copy : PrivateCopy), copy.touched.Nodup → copy.touched ⊆ named →
      (∀ call ∈ calls, ∀ key, call.key = some key → key ∈ named) →
      named.length ≤ copy.store.limits.capacity →
      answers call copy calls = answers ValueStore.call copy.store calls := by
  intro calls
  induction calls with
  | nil => exact fun _ _ _ _ _ => rfl
  | cons call rest ih =>
      intro copy hnodup hsubset hnamed hroom
      have hrest : ∀ call ∈ rest, ∀ key, call.key = some key → key ∈ named :=
        fun call hcall => hnamed call (by simp [hcall])
      obtain ⟨hlimits, hunchanged, hkeyed⟩ := copy.store.call_spec call
      by_cases hok : (copy.store.call call).2 = .ok
      · obtain ⟨key, hkey⟩ := hkeyed hok
        have hmem : key ∈ named := hnamed call (by simp) key hkey
        have hadmitted : copy.refuses call = false := by
          simp only [refuses, hkey, Bool.and_eq_false_imp, decide_eq_true_eq,
            decide_eq_false_iff_not]
          intro hfresh
          have hcons : (key :: copy.touched).Nodup := hnodup.cons hfresh
          have hall : key :: copy.touched ⊆ named := List.cons_subset.mpr ⟨hmem, hsubset⟩
          have hlength := (List.subperm_of_subset hcons hall).length_le
          simp only [List.length_cons] at hlength
          omega
        have hcall : copy.call call =
            (⟨(copy.store.call call).1, Snapshot.touch copy.touched key⟩, .ok) := by
          simp [PrivateCopy.call, hok, hadmitted, hkey]
        have htail := ih ⟨(copy.store.call call).1, Snapshot.touch copy.touched key⟩
          (Snapshot.nodup_touch hnodup key)
          (fun other hother => by
            rcases Snapshot.mem_touch.mp hother with rfl | hold
            · exact hmem
            · exact hsubset hold) hrest (by simpa [hlimits] using hroom)
        simp only [answers, hcall, hok, htail]
      · have hcall : copy.call call = (copy, (copy.store.call call).2) := by
          simp [PrivateCopy.call, hok]
        simp only [answers, hcall, hunchanged hok, ih copy hnodup hsubset hrest hroom]

/-- What the copy refuses for space: a new key in a full store, or one new to a
full log. -/
theorem call_enospc {copy : PrivateCopy} {call : TextCall}
    (hstatus : (copy.call call).2 = .enospc) :
    (∃ key, call.key = some key ∧ copy.store.findEntry key = none ∧
        copy.store.size ≥ copy.store.limits.capacity) ∨
      ∃ key, call.key = some key ∧ key ∉ copy.touched ∧
        copy.touched.length ≥ copy.store.limits.capacity := by
  by_cases hok : (copy.store.call call).2 = .ok
  · right
    cases hrefuses : copy.refuses call with
    | false => simp [PrivateCopy.call, hok, hrefuses] at hstatus
    | true =>
        rw [refuses] at hrefuses
        split at hrefuses
        · contradiction
        · rename_i key hkey
          exact ⟨key, hkey, by simpa using hrefuses⟩
  · left
    have hcall : (copy.call call).2 = (copy.store.call call).2 := by
      simp [PrivateCopy.call, hok]
    exact ValueStore.call_enospc (hcall ▸ hstatus)

end PrivateCopy

/-! ## Transactions in a world -/

/-- The transaction behind a handle has become this copy, and no store has changed. -/
def Carries (stores : Nat → Option ValueStore) (id : Nat) (copy : PrivateCopy) (world : World) :
    Prop :=
  world.stores = stores ∧ ∃ txn, world.txns id = some txn ∧ CopyOf txn copy

theorem Carries.step {stores : Nat → Option ValueStore} {id : Nat} {copy : PrivateCopy}
    {world : World} (hcarries : Carries stores id copy world) (call : TextCall) :
    Carries stores id (copy.call call).1 (world.step (call.request id)).1 ∧
      (copy.call call).2 = (world.step (call.request id)).2 := by
  obtain ⟨hstores, txn, htxn, hcopy⟩ := hcarries
  obtain ⟨hnext, hstatus⟩ := hcopy.call call
  have hstep : world.step (call.request id) =
      (world.withTxn id (some (txn.call call).1), (txn.call call).2) := by
    cases call <;> simp [TextCall.request, World.step, World.onTxn, htxn, ValueTxn.call]
  rw [hstep]
  exact ⟨⟨hstores, _, by simp [World.withTxn], hnext⟩, hstatus.symm⟩

/-- Every transaction begun on a store answers every list of calls like a private
copy whose log is bounded, changes no store, and answers exactly like a private
store while the calls name no more keys than the store has slots. -/
theorem txn_private_copy (world : World) (id target : Nat) (base : ValueStore)
    (hfree : world.txns id = none) (hbase : world.stores target = some base) :
    (world.step (.begin id target)).2 = .ok ∧ ∀ calls : List TextCall,
      answers World.step (world.step (.begin id target)).1 (calls.map (TextCall.request id)) =
        answers PrivateCopy.call (.fresh base) calls ∧
      (drive World.step (world.step (.begin id target)).1
        (calls.map (TextCall.request id))).stores = world.stores ∧
      ((calls.filterMap TextCall.key).dedup.length ≤ base.limits.capacity →
        answers World.step (world.step (.begin id target)).1 (calls.map (TextCall.request id)) =
          answers ValueStore.call base calls) ∧
      ∀ call, ((drive PrivateCopy.call (.fresh base) calls).call call).2 = .enospc →
        (∃ key, call.key = some key ∧
          (drive PrivateCopy.call (.fresh base) calls).store.findEntry key = none ∧
          (drive PrivateCopy.call (.fresh base) calls).store.size ≥
            (drive PrivateCopy.call (.fresh base) calls).store.limits.capacity) ∨
        ∃ key, call.key = some key ∧
          key ∉ (drive PrivateCopy.call (.fresh base) calls).touched ∧
          (drive PrivateCopy.call (.fresh base) calls).touched.length ≥
            (drive PrivateCopy.call (.fresh base) calls).store.limits.capacity := by
  have hbegin : world.step (.begin id target) =
      (world.withTxn id (some ⟨target, base, base, base.limits.capacity, []⟩), .ok) := by
    simp [World.step, World.txnBegin, hfree, hbase]
  have hstart : Carries world.stores id (.fresh base) (world.step (.begin id target)).1 := by
    rw [hbegin]
    exact ⟨rfl, _, Function.update_self .., ⟨rfl, rfl, rfl⟩⟩
  refine ⟨by rw [hbegin], fun calls => ?_⟩
  obtain ⟨hanswers, hlast⟩ := answers_eq_of_related (Carries world.stores id)
    (TextCall.request id) (fun copy current call hcarries => hcarries.step call) calls _ _ hstart
  refine ⟨hanswers.symm, hlast.1, fun hroom => ?_, fun call => PrivateCopy.call_enospc⟩
  rw [← hanswers]
  refine PrivateCopy.answers_eq_store (calls.filterMap TextCall.key).dedup calls (.fresh base)
    List.nodup_nil (by simp [PrivateCopy.fresh]) (fun call hcall key hkey => ?_) hroom
  exact List.mem_dedup.mpr (List.mem_filterMap.mpr ⟨call, hcall, hkey⟩)

/-- A world with one empty store of a single slot. -/
def singleSlot : World := World.empty.withStore 0 (.blank ⟨1, 4, 4⟩ (by decide))

/-- Use the only slot for one key, free it, and use it for another. -/
def reuse : List TextCall :=
  [.set (some (.literal "a")) (some (.literal "1")), .erase (some (.literal "a")),
    .set (some (.literal "b")) (some (.literal "2"))]

theorem txn_private_copy_reuse :
    answers World.step (singleSlot.step (.begin 0 0)).1 (reuse.map (TextCall.request 0)) =
      answers PrivateCopy.call (.fresh (.blank ⟨1, 4, 4⟩ (by decide))) reuse :=
  ((txn_private_copy singleSlot 0 0 (.blank ⟨1, 4, 4⟩ (by decide)) rfl rfl).2 reuse).1

/-- The log still holds the erased key, so the third call is refused although the
working copy is empty. -/
theorem txn_not_private_store :
    ¬ ∀ (world : World) (id target : Nat) (base : ValueStore) (calls : List TextCall),
      world.txns id = none → world.stores target = some base →
        answers World.step (world.step (.begin id target)).1 (calls.map (TextCall.request id)) =
          answers ValueStore.call base calls := by
  intro hequal
  have hreuse := hequal singleSlot 0 0 (.blank ⟨1, 4, 4⟩ (by decide)) reuse rfl rfl
  revert hreuse
  decide

end Praktor.Values
