/-
# The bounded value store

`praktor_c11_value_store` keeps text values under text keys in a fixed number of
slots.  Its capacity and its two length bounds are chosen at `init`, which also
allocates all backing storage; no later operation on a store allocates.

A key or value argument is a C string, `none` standing for a null pointer.  The
length of an argument is measured only up to one byte more than the bound, and
an argument that passed its bound is compared and copied as a whole.  A store
that has no implementation yet is absent; the callers in `Values.Transaction`
decide what they do about that.
-/

import Praktor.Data.Bytes
import Praktor.Math.SlotTable

namespace Praktor.Values

open Praktor.Data Praktor.Math

/-- `praktor_c11_value_status`. -/
inductive ValueStatus
  | ok
  | einval
  | enomem
  | enospc
  | enobufs
  | enotfound
  | econflict
  deriving DecidableEq, Repr

/-- `sizeof(praktor_c11_value_entry)` on a 64-bit target. -/
def entryBytes : Nat := 32

/-- The three numbers a store is created with. -/
structure StoreLimits where
  capacity : Nat
  maxKeyBytes : Nat
  maxValueBytes : Nat
  deriving DecidableEq, Repr

namespace StoreLimits

/-- The argument checks of `praktor_c11_value_store_init`. -/
def admitted (limits : StoreLimits) : Bool :=
  !(limits.capacity = 0 || limits.maxKeyBytes = 0 || limits.maxValueBytes = 0 ||
    limits.maxKeyBytes = sizeMax || limits.maxValueBytes = sizeMax ||
    limits.capacity > sizeMax / entryBytes ||
    limits.capacity > sizeMax / (limits.maxKeyBytes + 1) ||
    limits.capacity > sizeMax / (limits.maxValueBytes + 1))

/-- A key the store can hold. -/
def fitsKey (limits : StoreLimits) (key : CString) : Prop :=
  0 < key.length ∧ key.length ≤ limits.maxKeyBytes

instance (limits : StoreLimits) (key : CString) : Decidable (limits.fitsKey key) :=
  inferInstanceAs (Decidable (_ ∧ _))

/-- A value the store can hold. -/
def fitsValue (limits : StoreLimits) (value : CString) : Prop :=
  value.length ≤ limits.maxValueBytes

end StoreLimits

/-- `bounded_length` of a text that is there. -/
def boundedLength (text : CString) (maxBytes : Nat) : Nat := min text.length (maxBytes + 1)

theorem boundedLength_eq_zero_iff {text : CString} {maxBytes : Nat} :
    boundedLength text maxBytes = 0 ↔ text.length = 0 := by
  rw [boundedLength]
  omega

theorem boundedLength_gt_iff {text : CString} {maxBytes : Nat} :
    boundedLength text maxBytes > maxBytes ↔ text.length > maxBytes := by
  rw [boundedLength]
  omega

/-- What passes the length checks of a write fits. -/
theorem fits_of_lengths {limits : StoreLimits} {key value : CString}
    (hempty : ¬ (boundedLength key limits.maxKeyBytes = 0 ∨
      boundedLength key limits.maxKeyBytes = sizeMax))
    (hlong : ¬ (boundedLength key limits.maxKeyBytes > limits.maxKeyBytes ∨
      boundedLength value limits.maxValueBytes > limits.maxValueBytes)) :
    limits.fitsKey key ∧ limits.fitsValue value := by
  rw [not_or, boundedLength_eq_zero_iff] at hempty
  rw [not_or, boundedLength_gt_iff, boundedLength_gt_iff] at hlong
  exact ⟨⟨Nat.pos_of_ne_zero hempty.1, Nat.le_of_not_lt hlong.1⟩, Nat.le_of_not_lt hlong.2⟩

/-- `praktor_c11_value_store_impl`.  An entry that is not occupied is an empty
slot, and the entries never hold a key or a value beyond the bounds. -/
structure ValueStore where
  limits : StoreLimits
  size : Nat
  entries : SlotTable CString CString
  admitted : limits.admitted = true
  length_eq : entries.slots.length = limits.capacity
  size_eq : size = entries.occupied
  fits : ∀ key value, entries.lookup key = some value →
    limits.fitsKey key ∧ limits.fitsValue value

namespace ValueStore

/-- The text stored under a key: `find_entry` and the value it leads to. -/
def findEntry (store : ValueStore) (key : CString) : Option CString := store.entries.lookup key

/-- A store without entries. -/
def blank (limits : StoreLimits) (hadmitted : limits.admitted = true) : ValueStore where
  limits := limits
  size := 0
  entries := .blank limits.capacity
  admitted := hadmitted
  length_eq := by simp [SlotTable.blank]
  size_eq := by simp [SlotTable.occupied, SlotTable.keys, SlotTable.keysOf, SlotTable.blank]
  fits key value hfound := by simp at hfound

/-- `praktor_c11_value_store_init` on a handle without an implementation.  The
three arrays are requested before any of them is checked. -/
def init (limits : StoreLimits) (schedule : AllocSchedule) :
    Except ValueStatus ValueStore × AllocSchedule :=
  if hadmitted : limits.admitted = true then
    let (impl, schedule) := schedule.alloc
    if impl.isNone then (.error .enomem, schedule)
    else
      let (entries, schedule) := schedule.alloc
      let (keys, schedule) := schedule.alloc
      let (values, schedule) := schedule.alloc
      if entries.isNone || keys.isNone || values.isNone then (.error .enomem, schedule)
      else (.ok (blank limits hadmitted), schedule)
  else (.error .einval, schedule)

/-- The copy loop of `praktor_c11_value_store_clone`: every occupied slot is
copied to the same place and counted. -/
def copyEntries (source : ValueStore) : ValueStore :=
  { source with size := source.entries.occupied, size_eq := rfl }

/-- `praktor_c11_value_store_clone` into a handle without an implementation.
Every failure of `init` is reported as `ENOMEM`. -/
def clone (source : ValueStore) (schedule : AllocSchedule) :
    Except ValueStatus ValueStore × AllocSchedule :=
  match init source.limits schedule with
  | (.error _, schedule) => (.error .enomem, schedule)
  | (.ok _, schedule) => (.ok source.copyEntries, schedule)

/-- The last part of `set`, when the lengths have been admitted. -/
def insert (store : ValueStore) (key value : CString) (hkey : store.limits.fitsKey key)
    (hvalue : store.limits.fitsValue value) : ValueStore × ValueStatus :=
  match hput : store.entries.put key value with
  | none => (store, .enospc)
  | some entries =>
      ({ store with
          size := store.size + if store.findEntry key = none then 1 else 0
          entries := entries
          length_eq := (SlotTable.length_put hput).trans store.length_eq
          size_eq := by rw [SlotTable.occupied_put hput, store.size_eq, findEntry]
          fits := by
            intro other stored hstored
            rw [SlotTable.lookup_put hput, SlotTable.update_eq_some_iff] at hstored
            rcases hstored with ⟨rfl, hequal⟩ | ⟨_, hold⟩
            · rw [Option.some.injEq] at hequal
              exact ⟨hkey, hequal ▸ hvalue⟩
            · exact store.fits other stored hold }, .ok)

/-- `praktor_c11_value_store_set`. -/
def set (store : ValueStore) (key value : Option CString) : ValueStore × ValueStatus :=
  match key, value with
  | some key, some value =>
      if hempty : boundedLength key store.limits.maxKeyBytes = 0 ∨
          boundedLength key store.limits.maxKeyBytes = sizeMax then (store, .einval)
      else if hlong : boundedLength key store.limits.maxKeyBytes > store.limits.maxKeyBytes ∨
          boundedLength value store.limits.maxValueBytes > store.limits.maxValueBytes then
        (store, .enobufs)
      else
        store.insert key value (fits_of_lengths hempty hlong).1 (fits_of_lengths hempty hlong).2
  | _, _ => (store, .einval)

/-- The validation loop of `set_many` from one write on: `seen` holds the keys of
the writes before it, and the result counts the writes whose key is new. -/
def checkWrites (store : ValueStore) :
    List (Option CString × Option CString) → List CString → Nat → Except ValueStatus Nat
  | [], _, needed => .ok needed
  | (some key, some value) :: rest, seen, needed =>
      if boundedLength key store.limits.maxKeyBytes = 0 then .error .einval
      else if boundedLength key store.limits.maxKeyBytes > store.limits.maxKeyBytes ∨
          boundedLength value store.limits.maxValueBytes > store.limits.maxValueBytes then
        .error .enobufs
      else if key ∈ seen then .error .einval
      else
        store.checkWrites rest (seen ++ [key])
          (needed + if store.findEntry key = none then 1 else 0)
  | _ :: _, _, _ => .error .einval

/-- `praktor_c11_value_store_set_many`.  The statuses of the single sets of the
publication loop are dropped, as in the source. -/
def setMany (store : ValueStore) (writes : List (Option CString × Option CString)) :
    ValueStore × ValueStatus :=
  if writes.length > store.limits.capacity then (store, .enospc)
  else
    match store.checkWrites writes [] 0 with
    | .error status => (store, status)
    | .ok needed =>
        if needed > store.limits.capacity - store.size then (store, .enospc)
        else (writes.foldl (fun store write => (store.set write.1 write.2).1) store, .ok)

/-- The key checks shared by `get`, `contains` and `erase`. -/
def admitsKey (store : ValueStore) (key : CString) : Bool :=
  !(boundedLength key store.limits.maxKeyBytes = 0 ||
    boundedLength key store.limits.maxKeyBytes > store.limits.maxKeyBytes ||
    boundedLength key store.limits.maxKeyBytes = sizeMax)

/-- `praktor_c11_value_store_get` into a buffer of `capacity` bytes, `none` when
the caller passed no buffer: the size written back and the text copied. -/
def get (store : ValueStore) (key : Option CString) (capacity : Option Nat) :
    ValueStatus × Option Nat × Option CString :=
  match key with
  | none => (.einval, none, none)
  | some key =>
      if store.admitsKey key then
        match store.findEntry key with
        | none => (.enotfound, none, none)
        | some value =>
            match capacity with
            | none => (.enobufs, some value.length, none)
            | some capacity =>
                if capacity ≤ value.length then (.enobufs, some value.length, none)
                else (.ok, some value.length, some value)
      else (.einval, none, none)

/-- `praktor_c11_value_store_contains`. -/
def contains (store : ValueStore) (key : Option CString) : Except ValueStatus Bool :=
  match key with
  | none => .error .einval
  | some key => if store.admitsKey key then .ok (store.findEntry key).isSome else .error .einval

/-- `praktor_c11_value_store_erase`. -/
def erase (store : ValueStore) (key : Option CString) : ValueStore × ValueStatus :=
  match key with
  | none => (store, .einval)
  | some key =>
      if store.admitsKey key then
        if hfound : store.findEntry key = none then (store, .enotfound)
        else
          ({ store with
              size := store.size - 1
              entries := store.entries.erase key
              length_eq := (SlotTable.length_erase _ _).trans store.length_eq
              size_eq := by
                have hcount := SlotTable.occupied_erase hfound
                have hsize := store.size_eq
                omega
              fits := by
                intro other stored hstored
                rw [SlotTable.lookup_erase, SlotTable.update_eq_some_iff] at hstored
                rcases hstored with ⟨_, hnone⟩ | ⟨_, hold⟩
                · contradiction
                · exact store.fits other stored hold }, .ok)
      else (store, .einval)

/-! ## What each operation does -/

/-- Two stores with the same limits and the same slots are the same store. -/
theorem eq_of_entries {first second : ValueStore} (hlimits : first.limits = second.limits)
    (hentries : first.entries = second.entries) : first = second := by
  obtain ⟨limits, size, entries, _, _, hsize, _⟩ := first
  obtain ⟨limits', size', entries', _, _, hsize', _⟩ := second
  obtain rfl : limits = limits' := hlimits
  obtain rfl : entries = entries' := hentries
  obtain rfl : size = size' := hsize.trans hsize'.symm
  rfl

theorem copyEntries_eq (source : ValueStore) : source.copyEntries = source :=
  eq_of_entries rfl rfl

/-- A clone is the store itself, or the clone failed for want of memory. -/
theorem clone_cases (source : ValueStore) (schedule : AllocSchedule) :
    (source.clone schedule).1 = .ok source ∨ (source.clone schedule).1 = .error .enomem := by
  rw [clone]
  split
  · exact .inr rfl
  · exact .inl (by rw [copyEntries_eq])

@[simp]
theorem clone_nil (source : ValueStore) : source.clone [] = (.ok source, []) := by
  simp [clone, init, source.admitted, copyEntries_eq]

theorem maxKeyBytes_lt (store : ValueStore) : store.limits.maxKeyBytes < sizeMax := by
  have hadmitted := store.admitted
  simp only [StoreLimits.admitted, Bool.not_eq_true', Bool.or_eq_false_iff,
    decide_eq_false_iff_not, Nat.not_lt, gt_iff_lt] at hadmitted
  obtain ⟨⟨⟨⟨⟨⟨⟨hcapacity, _⟩, _⟩, _⟩, _⟩, _⟩, hkeys⟩, _⟩ := hadmitted
  by_contra hge
  have hzero : sizeMax / (store.limits.maxKeyBytes + 1) = 0 := Nat.div_eq_of_lt (by omega)
  omega

theorem admitsKey_iff {store : ValueStore} {key : CString} :
    store.admitsKey key = true ↔ store.limits.fitsKey key := by
  have hmax := store.maxKeyBytes_lt
  rw [admitsKey, StoreLimits.fitsKey, Bool.not_eq_true', ← Bool.not_eq_true, boundedLength]
  simp only [Bool.or_eq_true, decide_eq_true_eq]
  omega

theorem fitsKey_of_findEntry {store : ValueStore} {key value : CString}
    (hfound : store.findEntry key = some value) : store.limits.fitsKey key :=
  (store.fits key value hfound).1

theorem size_le (store : ValueStore) : store.size ≤ store.limits.capacity := by
  rw [store.size_eq, ← store.length_eq]
  exact store.entries.occupied_le

section Insertion

variable {store : ValueStore} {key value : CString} (hkey : store.limits.fitsKey key)
  (hvalue : store.limits.fitsValue value)

/-- `insert` either found no room or made the put. -/
theorem insert_cases :
    (store.entries.put key value = none ∧ store.insert key value hkey hvalue = (store, .enospc)) ∨
      ∃ next, store.entries.put key value = some next.entries ∧ next.limits = store.limits ∧
        store.insert key value hkey hvalue = (next, .ok) := by
  rw [insert]
  split
  · rename_i hput
    exact .inl ⟨hput, rfl⟩
  · rename_i entries hput
    refine .inr ⟨_, ?_, ?_, rfl⟩
    · exact hput
    · rfl

/-- Admitted arguments reach the insertion. -/
theorem set_eq_insert :
    store.set (some key) (some value) = store.insert key value hkey hvalue := by
  have hmax := store.maxKeyBytes_lt
  have hempty : ¬ (boundedLength key store.limits.maxKeyBytes = 0 ∨
      boundedLength key store.limits.maxKeyBytes = sizeMax) := by
    have := hkey.1
    have := hkey.2
    simp only [boundedLength]
    omega
  have hlong : ¬ (boundedLength key store.limits.maxKeyBytes > store.limits.maxKeyBytes ∨
      boundedLength value store.limits.maxValueBytes > store.limits.maxValueBytes) := by
    rw [boundedLength_gt_iff, boundedLength_gt_iff, not_or]
    exact ⟨Nat.not_lt.mpr hkey.2, Nat.not_lt.mpr hvalue⟩
  rw [set, dif_neg hempty, dif_neg hlong]

end Insertion

/-- Only a new key in a full store is refused. -/
theorem put_eq_none_iff (store : ValueStore) (key value : CString) :
    store.entries.put key value = none ↔
      store.findEntry key = none ∧ store.size ≥ store.limits.capacity := by
  have hsize := store.size_eq
  have hlength := store.length_eq
  have hle := store.size_le
  rw [SlotTable.put_eq_none_iff, findEntry]
  constructor
  · rintro ⟨hmissing, hfull⟩
    exact ⟨hmissing, by omega⟩
  · rintro ⟨hmissing, hfull⟩
    exact ⟨hmissing, by omega⟩

/-- What `set` does when it succeeds, and that it does nothing otherwise. -/
structure SetSpec (store : ValueStore) (key value : Option CString)
    (result : ValueStore × ValueStatus) : Prop where
  limits_eq : result.1.limits = store.limits
  unchanged : result.2 ≠ .ok → result.1 = store
  updated : result.2 = .ok → ∃ newKey newValue, key = some newKey ∧ value = some newValue ∧
    store.limits.fitsKey newKey ∧ store.limits.fitsValue newValue ∧
    result.1.findEntry = Function.update store.findEntry newKey (some newValue)

theorem set_spec (store : ValueStore) (key value : Option CString) :
    SetSpec store key value (store.set key value) := by
  have hrefused (status : ValueStatus) (hstatus : status ≠ .ok) :
      SetSpec store key value (store, status) :=
    ⟨rfl, fun _ => rfl, fun hok => absurd hok hstatus⟩
  rw [set.eq_def]
  split
  · rename_i key value
    split
    · exact hrefused _ (by simp)
    split
    · exact hrefused _ (by simp)
    · rename_i hempty hlong
      obtain ⟨hkey, hvalue⟩ := fits_of_lengths hempty hlong
      rcases insert_cases hkey hvalue with ⟨_, hinsert⟩ | ⟨next, hput, hlimits, hinsert⟩
      · rw [hinsert]
        exact hrefused _ (by simp)
      · rw [hinsert]
        exact ⟨hlimits, fun hne => absurd rfl hne, fun _ =>
          ⟨key, value, rfl, rfl, hkey, hvalue, SlotTable.lookup_put hput⟩⟩
  · exact hrefused _ (by simp)

/-- What `erase` does when it succeeds, and that it does nothing otherwise. -/
structure EraseSpec (store : ValueStore) (key : Option CString)
    (result : ValueStore × ValueStatus) : Prop where
  limits_eq : result.1.limits = store.limits
  unchanged : result.2 ≠ .ok → result.1 = store
  updated : result.2 = .ok → ∃ oldKey, key = some oldKey ∧ store.limits.fitsKey oldKey ∧
    store.findEntry oldKey ≠ none ∧ result.1.entries = store.entries.erase oldKey

theorem erase_spec (store : ValueStore) (key : Option CString) :
    EraseSpec store key (store.erase key) := by
  have hrefused (status : ValueStatus) (hstatus : status ≠ .ok) :
      EraseSpec store key (store, status) :=
    ⟨rfl, fun _ => rfl, fun hok => absurd hok hstatus⟩
  rw [erase.eq_def]
  split
  · exact hrefused _ (by simp)
  · rename_i key
    split
    · rename_i hadmits
      split
      · exact hrefused _ (by simp)
      · rename_i hfound
        exact ⟨rfl, fun hne => absurd rfl hne,
          fun _ => ⟨key, rfl, admitsKey_iff.mp hadmits, hfound, rfl⟩⟩
    · exact hrefused _ (by simp)

theorem findEntry_of_erase {store next : ValueStore} {key : CString}
    (hentries : next.entries = store.entries.erase key) :
    next.findEntry = Function.update store.findEntry key none := by
  funext other
  rw [findEntry, hentries, SlotTable.lookup_erase]
  rfl

/-- `set_many` keeps the limits, and a refused one changes nothing. -/
theorem setMany_frame (store : ValueStore) (writes : List (Option CString × Option CString)) :
    (store.setMany writes).1.limits = store.limits ∧
      ((store.setMany writes).2 ≠ .ok → (store.setMany writes).1 = store) := by
  have hfold : ∀ (writes : List (Option CString × Option CString)) (current : ValueStore),
      (writes.foldl (fun store write => (store.set write.1 write.2).1) current).limits =
        current.limits := by
    intro writes
    induction writes with
    | nil => exact fun _ => rfl
    | cons write rest ih =>
        intro current
        rw [List.foldl_cons, ih]
        exact (set_spec current write.1 write.2).limits_eq
  rw [setMany]
  split
  · exact ⟨rfl, fun _ => rfl⟩
  split
  · exact ⟨rfl, fun _ => rfl⟩
  split
  · exact ⟨rfl, fun _ => rfl⟩
  · exact ⟨hfold writes store, fun hne => absurd rfl hne⟩

end ValueStore

end Praktor.Values
