/-
# A bounded store is a finite map

What a caller wants from a value store is a finite map with two length bounds and a bound
on the number of keys.  `MapStore` is that map, with the answers of the store in terms of
it.  The stores of a program live behind handles; a machine over the handles serves any
sequence of calls, and the same machine runs on memory and on maps.

The main result: on memory and on maps the machine gives the same answers to every
sequence of calls, and every memory it reaches represents its map.
-/

import Praktor.Math.Run
import Praktor.Values.StoreMemory

namespace Praktor.Values

open Praktor.Data Praktor.Math

/-- A finite map with the bounds of a store. -/
structure MapStore where
  limits : StoreLimits
  map : CString → Option CString

namespace MapStore

/-- The number of keys. -/
noncomputable def size (store : MapStore) : Nat := (SlotTable.domain store.map).ncard

/-- A map without keys. -/
def init (limits : StoreLimits) : Except ValueStatus MapStore :=
  if limits.admitted = true then .ok ⟨limits, fun _ => none⟩ else .error .einval

/-- Bind a key to a value.  A key whose measured length is `SIZE_MAX` is taken for a null
pointer. -/
noncomputable def set (store : MapStore) (key value : Option CString) : MapStore × ValueStatus :=
  match key, value with
  | some key, some value =>
      if key.length = 0 ∨ boundedLength key store.limits.maxKeyBytes = sizeMax then (store, .einval)
      else if key.length > store.limits.maxKeyBytes ∨ value.length > store.limits.maxValueBytes then
        (store, .enobufs)
      else if store.map key = none ∧ store.size = store.limits.capacity then (store, .enospc)
      else ({ store with map := Function.update store.map key (some value) }, .ok)
  | _, _ => (store, .einval)

/-- The bindings of a list of writes, or the fault of the first write that has one; a key
must not stand among the ones before. -/
def readWrites (limits : StoreLimits) :
    List (Option CString × Option CString) → List CString →
      Except ValueStatus (List (CString × CString))
  | [], _ => .ok []
  | (some key, some value) :: rest, seen =>
      if key.length = 0 then .error .einval
      else if key.length > limits.maxKeyBytes ∨ value.length > limits.maxValueBytes then
        .error .enobufs
      else if key ∈ seen then .error .einval
      else (readWrites limits rest (seen ++ [key])).map ((key, value) :: ·)
  | _ :: _, _ => .error .einval

/-- The bindings whose key is new. -/
def fresh (map : CString → Option CString) (bindings : List (CString × CString)) : Nat :=
  (bindings.filter fun binding => map binding.1 = none).length

theorem fresh_cons (map : CString → Option CString) (binding : CString × CString)
    (rest : List (CString × CString)) :
    fresh map (binding :: rest) = (if map binding.1 = none then 1 else 0) + fresh map rest := by
  by_cases hmissing : map binding.1 = none
  · simp [fresh, hmissing, Nat.add_comm]
  · simp [fresh, hmissing]

/-- Bind several keys. -/
def bindAll (map : CString → Option CString) (bindings : List (CString × CString)) :
    CString → Option CString :=
  bindings.foldl (fun map binding => Function.update map binding.1 (some binding.2)) map

/-- Bind several keys or none. -/
noncomputable def setMany (store : MapStore) (writes : List (Option CString × Option CString)) :
    MapStore × ValueStatus :=
  if writes.length > store.limits.capacity then (store, .enospc)
  else
    match readWrites store.limits writes [] with
    | .error status => (store, status)
    | .ok bindings =>
        if store.size + fresh store.map bindings > store.limits.capacity then (store, .enospc)
        else ({ store with map := bindAll store.map bindings }, .ok)

/-- The value of a key with its terminator, if the buffer is large enough. -/
def get (store : MapStore) (key : Option CString) (capacity : Option Nat) :
    ValueStatus × Option Nat × Option Bytes :=
  match key with
  | none => (.einval, none, none)
  | some key =>
      if store.limits.fitsKey key then
        match store.map key with
        | none => (.enotfound, none, none)
        | some value =>
            match capacity with
            | none => (.enobufs, some value.length, none)
            | some capacity =>
                if value.length < capacity then
                  (.ok, some value.length, some (value.bytes ++ [0]))
                else (.enobufs, some value.length, none)
      else (.einval, none, none)

/-- Membership. -/
def contains (store : MapStore) (key : Option CString) : Except ValueStatus Bool :=
  match key with
  | none => .error .einval
  | some key =>
      if store.limits.fitsKey key then .ok (store.map key).isSome else .error .einval

/-- Remove a key. -/
def erase (store : MapStore) (key : Option CString) : MapStore × ValueStatus :=
  match key with
  | none => (store, .einval)
  | some key =>
      if store.limits.fitsKey key then
        if store.map key = none then (store, .enotfound)
        else ({ store with map := Function.update store.map key none }, .ok)
      else (store, .einval)

end MapStore

/-- The map of a store. -/
def ValueStore.toMap (store : ValueStore) : MapStore := ⟨store.limits, store.findEntry⟩

namespace ValueStore

@[simp]
theorem toMap_limits (store : ValueStore) : store.toMap.limits = store.limits := rfl

@[simp]
theorem toMap_map (store : ValueStore) : store.toMap.map = store.findEntry := rfl

@[simp]
theorem toMap_size (store : ValueStore) : store.toMap.size = store.size := by
  rw [store.size_eq, ← SlotTable.ncard_domain_lookup]
  rfl

/-! ## A store answers like its map -/

/-- `set` binds a key. -/
theorem set_toMap (store : ValueStore) (key value : Option CString) :
    store.toMap.set key value = ((store.set key value).1.toMap, (store.set key value).2) := by
  cases key with
  | none => rfl
  | some key =>
      cases value with
      | none => rfl
      | some value =>
          have hempty := @boundedLength_eq_zero_iff key store.limits.maxKeyBytes
          have hkey := @boundedLength_gt_iff key store.limits.maxKeyBytes
          have hvalue := @boundedLength_gt_iff value store.limits.maxValueBytes
          simp only [MapStore.set, ValueStore.set, toMap_limits, ← hempty, ← hkey, ← hvalue]
          by_cases hnone : boundedLength key store.limits.maxKeyBytes = 0 ∨
              boundedLength key store.limits.maxKeyBytes = sizeMax
          · rw [if_pos hnone, dif_pos hnone]
          by_cases hlong : boundedLength key store.limits.maxKeyBytes > store.limits.maxKeyBytes ∨
              boundedLength value store.limits.maxValueBytes > store.limits.maxValueBytes
          · rw [if_neg hnone, dif_neg hnone, if_pos hlong, dif_pos hlong]
          rw [if_neg hnone, dif_neg hnone, if_neg hlong, dif_neg hlong]
          obtain ⟨hfitsKey, hfitsValue⟩ := fits_of_lengths hnone hlong
          have hfull := store.put_eq_none_iff key value
          have hle := store.size_le
          rcases insert_cases hfitsKey hfitsValue with ⟨hput, hinsert⟩ | ⟨next, hput, hlimits, hinsert⟩
          · obtain ⟨hmissing, hsize⟩ := hfull.mp hput
            have hequal : store.size = store.limits.capacity := by omega
            simp only [hinsert, toMap_map, toMap_size, hmissing, hequal, and_self, if_true]
          · have hroom : ¬ (store.findEntry key = none ∧ store.size = store.limits.capacity) := by
              rintro ⟨hmissing, hsize⟩
              rw [hfull.mpr ⟨hmissing, hsize.ge⟩] at hput
              cases hput
            simp only [hinsert, toMap_map, toMap_size, hroom, if_false]
            refine Prod.ext ?_ rfl
            simp only [toMap, hlimits, MapStore.mk.injEq, true_and]
            exact (SlotTable.lookup_put hput).symm

/-- `erase` removes a key. -/
theorem erase_toMap (store : ValueStore) (key : Option CString) :
    store.toMap.erase key = ((store.erase key).1.toMap, (store.erase key).2) := by
  cases key with
  | none => rfl
  | some key =>
      have hadmits := @admitsKey_iff store key
      simp only [MapStore.erase, ValueStore.erase, toMap_limits, toMap_map]
      by_cases hfits : store.limits.fitsKey key
      · simp only [hfits, hadmits.mpr hfits, if_true]
        by_cases hmissing : store.findEntry key = none
        · simp only [hmissing, if_true, dif_pos]
        · simp only [hmissing, if_false, dif_neg, not_false_eq_true]
          refine Prod.ext ?_ rfl
          simp only [toMap, MapStore.mk.injEq, true_and]
          exact (SlotTable.lookup_erase store.entries key).symm
      · simp [hfits, mt hadmits.mp hfits]

theorem contains_toMap (store : ValueStore) (key : Option CString) :
    store.toMap.contains key = store.contains key := by
  cases key with
  | none => rfl
  | some key =>
      have hadmits := @admitsKey_iff store key
      simp only [MapStore.contains, ValueStore.contains, toMap_limits, toMap_map, hadmits]
      by_cases hfits : store.limits.fitsKey key
      · simp [hfits]
      · simp [hfits]

theorem get_toMap (store : ValueStore) (key : Option CString) (capacity : Option Nat) :
    store.toMap.get key capacity = ((store.get key capacity).1, (store.get key capacity).2.1,
      (store.get key capacity).2.2.map fun value => value.bytes ++ [0]) := by
  cases key with
  | none => rfl
  | some key =>
      have hadmits := @admitsKey_iff store key
      simp only [MapStore.get, ValueStore.get, toMap_limits, toMap_map, hadmits]
      by_cases hfits : store.limits.fitsKey key
      · simp only [hfits, if_true]
        cases store.findEntry key with
        | none => rfl
        | some value =>
            cases capacity with
            | none => rfl
            | some capacity =>
                simp only [← Nat.not_le]
                by_cases hshort : capacity ≤ value.length
                · simp [hshort]
                · simp [hshort]
      · simp [hfits]

/-! ## Several writes -/

/-- The validation loop reads the bindings and counts the new ones. -/
theorem checkWrites_toMap (store : ValueStore) (writes : List (Option CString × Option CString))
    (seen : List CString) (needed : Nat) :
    store.checkWrites writes seen needed =
      (MapStore.readWrites store.limits writes seen).map
        fun bindings => needed + MapStore.fresh store.findEntry bindings := by
  induction writes generalizing seen needed with
  | nil => rfl
  | cons write rest ih =>
      obtain ⟨key | key, value | value⟩ := write
      · rfl
      · rfl
      · rfl
      simp only [checkWrites, MapStore.readWrites, boundedLength_eq_zero_iff, boundedLength_gt_iff]
      split
      · rfl
      split
      · rfl
      split
      · rfl
      rw [ih]
      cases hread : MapStore.readWrites store.limits rest (seen ++ [key]) with
      | error status => rfl
      | ok bindings =>
          simp only [Except.map, MapStore.fresh_cons, Nat.add_assoc]

end ValueStore

/-- Bindings that may be made one after the other: the keys differ, are not among the ones
before, and everything fits. -/
structure Bindable (limits : StoreLimits) (seen : List CString)
    (bindings : List (CString × CString)) : Prop where
  nodup : (bindings.map Prod.fst).Nodup
  apart : ∀ binding ∈ bindings, binding.1 ∉ seen
  fits : ∀ binding ∈ bindings, limits.fitsKey binding.1 ∧ limits.fitsValue binding.2

/-- Writes ask for one list of bindings. -/
theorem bindings_injective {first second : List (CString × CString)}
    (hsame : (first.map fun binding => (some binding.1, some binding.2)) =
      second.map fun binding => (some binding.1, some binding.2)) : first = second := by
  refine List.map_injective_iff.mpr ?_ hsame
  rintro ⟨key, value⟩ ⟨key', value'⟩ hpair
  simpa using hpair

namespace MapStore

/-- What is read from a list of writes are the writes, and they may be made. -/
theorem readWrites_ok {limits : StoreLimits} {writes : List (Option CString × Option CString)}
    {seen : List CString} {bindings : List (CString × CString)}
    (hread : readWrites limits writes seen = .ok bindings) :
    writes = bindings.map (fun binding => (some binding.1, some binding.2)) ∧
      Bindable limits seen bindings := by
  induction writes generalizing seen bindings with
  | nil =>
      obtain rfl : [] = bindings := by simpa [readWrites] using hread
      exact ⟨rfl, ⟨List.nodup_nil, by simp, by simp⟩⟩
  | cons write rest ih =>
      obtain ⟨key | key, value | value⟩ := write
      · simp [readWrites] at hread
      · simp [readWrites] at hread
      · simp [readWrites] at hread
      rw [readWrites] at hread
      split at hread
      · cases hread
      rename_i hempty
      split at hread
      · cases hread
      rename_i hlong
      split at hread
      · cases hread
      rename_i hunseen
      cases hrest : readWrites limits rest (seen ++ [key]) with
      | error status => simp [hrest, Except.map] at hread
      | ok tail =>
          obtain rfl : (key, value) :: tail = bindings := by simpa [hrest, Except.map] using hread
          obtain ⟨hwrites, hbindable⟩ := ih hrest
          have hfits : limits.fitsKey key ∧ limits.fitsValue value := by
            simp only [StoreLimits.fitsKey, StoreLimits.fitsValue]
            omega
          have hapart : ∀ binding ∈ tail, binding.1 ∉ seen ∧ binding.1 ≠ key := by
            intro binding hmem
            simpa using hbindable.apart binding hmem
          refine ⟨by rw [hwrites]; rfl, ⟨?_, ?_, ?_⟩⟩
          · rw [List.map_cons, List.nodup_cons]
            refine ⟨?_, hbindable.nodup⟩
            rintro hmem
            obtain ⟨binding, hbinding, hkey⟩ := List.mem_map.mp hmem
            exact (hapart binding hbinding).2 hkey
          · intro binding hmem
            rcases List.mem_cons.mp hmem with rfl | hmem
            · exact hunseen
            · exact (hapart binding hmem).1
          · intro binding hmem
            rcases List.mem_cons.mp hmem with rfl | hmem
            · exact hfits
            · exact hbindable.fits binding hmem

/-- A batch is refused with an error. -/
theorem readWrites_error {limits : StoreLimits} {writes : List (Option CString × Option CString)}
    {seen : List CString} {status : ValueStatus}
    (hread : readWrites limits writes seen = .error status) : status ≠ .ok := by
  induction writes generalizing seen with
  | nil => cases hread
  | cons write rest ih =>
      obtain ⟨key | key, value | value⟩ := write
      · exact Except.error.inj hread ▸ nofun
      · exact Except.error.inj hread ▸ nofun
      · exact Except.error.inj hread ▸ nofun
      rw [readWrites] at hread
      split at hread
      · exact Except.error.inj hread ▸ nofun
      split at hread
      · exact Except.error.inj hread ▸ nofun
      split at hread
      · exact Except.error.inj hread ▸ nofun
      cases hrest : readWrites limits rest (seen ++ [key]) with
      | error other =>
          rw [hrest] at hread
          obtain rfl : other = status := Except.error.inj hread
          exact ih hrest
      | ok bindings =>
          rw [hrest] at hread
          cases hread

theorem bindAll_of_not_mem {map : CString → Option CString} {writes : List (CString × CString)}
    {key : CString} (hkey : key ∉ writes.map Prod.fst) : bindAll map writes key = map key := by
  induction writes generalizing map with
  | nil => rfl
  | cons write rest ih =>
      obtain ⟨hfirst, hrest⟩ := not_or.mp (mt List.mem_cons.mpr hkey)
      exact (ih hrest).trans (Function.update_of_ne hfirst ..)

theorem bindAll_of_mem {map : CString → Option CString} {writes : List (CString × CString)}
    (hnodup : (writes.map Prod.fst).Nodup) {write : CString × CString} (hwrite : write ∈ writes) :
    bindAll map writes write.1 = some write.2 := by
  induction writes generalizing map with
  | nil => cases hwrite
  | cons first rest ih =>
      obtain ⟨hfirst, hrest⟩ := List.nodup_cons.mp hnodup
      rcases List.mem_cons.mp hwrite with rfl | hlater
      · exact (bindAll_of_not_mem hfirst).trans (Function.update_self ..)
      · exact ih hrest hlater

/-- A binding whose key is not among the others does not change how many of them are new. -/
theorem fresh_update {map : CString → Option CString} {bindings : List (CString × CString)}
    {key : CString} (value : Option CString) (hapart : key ∉ bindings.map Prod.fst) :
    fresh (Function.update map key value) bindings = fresh map bindings := by
  rw [fresh, fresh]
  congr 1
  apply List.filter_congr
  intro binding hmem
  have hne : binding.1 ≠ key := by
    rintro rfl
    exact hapart (List.mem_map_of_mem hmem)
  rw [Function.update_of_ne hne]

end MapStore

namespace ValueStore

/-- A binding that finds room is made. -/
theorem set_of_room {store : ValueStore} {key value : CString} (hkey : store.limits.fitsKey key)
    (hvalue : store.limits.fitsValue value)
    (hroom : store.findEntry key = none → store.size < store.limits.capacity) :
    ∃ next, store.set (some key) (some value) = (next, .ok) ∧ next.limits = store.limits ∧
      next.size = store.size + (if store.findEntry key = none then 1 else 0) ∧
      next.findEntry = Function.update store.findEntry key (some value) := by
  rcases insert_cases hkey hvalue with ⟨hput, _⟩ | ⟨next, hput, hlimits, hinsert⟩
  · obtain ⟨hmissing, hfull⟩ := (store.put_eq_none_iff key value).mp hput
    have hlt := hroom hmissing
    omega
  · refine ⟨next, ?_, hlimits, ?_, SlotTable.lookup_put hput⟩
    · rw [set_eq_insert hkey hvalue, hinsert]
    · rw [next.size_eq, SlotTable.occupied_put hput, ← store.size_eq]
      rfl

/-- Bindings that find room are all made. -/
theorem foldl_set_toMap {bindings : List (CString × CString)} (store : ValueStore)
    (hnodup : (bindings.map Prod.fst).Nodup)
    (hfits : ∀ binding ∈ bindings,
      store.limits.fitsKey binding.1 ∧ store.limits.fitsValue binding.2)
    (hroom : store.size + MapStore.fresh store.findEntry bindings ≤ store.limits.capacity) :
    (bindings.foldl (fun store binding => (store.set (some binding.1) (some binding.2)).1)
      store).toMap =
      { store.toMap with map := MapStore.bindAll store.findEntry bindings } := by
  induction bindings generalizing store with
  | nil => rfl
  | cons binding rest ih =>
      obtain ⟨key, value⟩ := binding
      obtain ⟨hhead, hrest⟩ := List.nodup_cons.mp hnodup
      obtain ⟨hkey, hvalue⟩ := hfits (key, value) List.mem_cons_self
      rw [MapStore.fresh_cons] at hroom
      have hfree : store.findEntry key = none → store.size < store.limits.capacity := by
        intro hmissing
        simp only [hmissing, if_true] at hroom
        omega
      obtain ⟨next, hset, hlimits, hsize, hmap⟩ := set_of_room hkey hvalue hfree
      have hlater := ih next hrest
        (fun binding hmem => hlimits ▸ hfits binding (List.mem_cons_of_mem _ hmem))
        (by
          rw [hmap, MapStore.fresh_update _ hhead, hsize, hlimits]
          omega)
      rw [List.foldl_cons, hset, hlater]
      simp only [toMap, hlimits, hmap, MapStore.bindAll, List.foldl_cons]

/-- `set_many` binds all keys or none. -/
theorem setMany_toMap (store : ValueStore) (writes : List (Option CString × Option CString)) :
    store.toMap.setMany writes = ((store.setMany writes).1.toMap, (store.setMany writes).2) := by
  simp only [MapStore.setMany, setMany, checkWrites_toMap, toMap_limits, toMap_size, toMap_map,
    Nat.zero_add]
  by_cases hmany : writes.length > store.limits.capacity
  · simp only [hmany, if_true]
  simp only [hmany, if_false]
  cases hread : MapStore.readWrites store.limits writes [] with
  | error status => rfl
  | ok bindings =>
      have hle := store.size_le
      have hover : MapStore.fresh store.findEntry bindings > store.limits.capacity - store.size ↔
          store.size + MapStore.fresh store.findEntry bindings > store.limits.capacity := by
        omega
      simp only [Except.map, hover]
      by_cases hfull : store.size + MapStore.fresh store.findEntry bindings > store.limits.capacity
      · simp only [hfull, if_true]
      · obtain ⟨hwrites, hbindable⟩ := MapStore.readWrites_ok hread
        have hmade := foldl_set_toMap store hbindable.nodup hbindable.fits (by omega)
        simp only [hfull, if_false, hwrites, List.foldl_map, hmade]
        rfl

/-- A batch that was accepted could be made, and has been. -/
theorem setMany_accepted {values next : ValueStore}
    {writes : List (Option CString × Option CString)}
    (hwrites : values.setMany writes = (next, .ok)) :
    ∃ bindings : List (CString × CString),
      writes = bindings.map (fun binding => (some binding.1, some binding.2)) ∧
        Bindable values.limits [] bindings ∧
        next.toMap = { values.toMap with map := MapStore.bindAll values.findEntry bindings } := by
  have hrefined := setMany_toMap values writes
  rw [hwrites, MapStore.setMany] at hrefined
  split at hrefined
  · exact absurd (congrArg Prod.snd hrefined) nofun
  split at hrefined
  · next status hread =>
      exact absurd (congrArg Prod.snd hrefined) (MapStore.readWrites_error hread)
  · next bindings hread =>
      obtain ⟨hsame, hbindable⟩ := MapStore.readWrites_ok hread
      split at hrefined
      · exact absurd (congrArg Prod.snd hrefined) nofun
      · exact ⟨bindings, hsame, hbindable, (congrArg Prod.fst hrefined).symm⟩

theorem findEntry_setMany {values next : ValueStore} {writes : List (CString × CString)}
    (hwrites : values.setMany (writes.map fun write => (some write.1, some write.2)) = (next, .ok)) :
    next.findEntry = MapStore.bindAll values.findEntry writes := by
  obtain ⟨bindings, hmap, -, hnext⟩ := setMany_accepted hwrites
  obtain rfl := bindings_injective hmap
  exact congrArg MapStore.map hnext

end ValueStore

end Praktor.Values
