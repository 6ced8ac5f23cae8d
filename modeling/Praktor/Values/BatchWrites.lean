/-
# Several writes at once

`praktor_c11_value_store_set_many` looks at all its writes before it makes the first one,
and it does not look at the statuses of the single writes.  What it has checked by then is
what the single writes need: the keys differ and fit, the values fit, and the keys that
are new find room.

The main result, for every store a program can reach: a batch is accepted exactly when it
is admissible, an accepted batch leaves the program where the single writes in order leave
it, with every one of them accepted, and a refused batch changes nothing.
-/

import Praktor.Values.StoreRun

namespace Praktor.Values

open Praktor.Data Praktor.Math

/-- The bindings that a list of writes asks for may all be made: the keys are pairwise
different and within the key bound, the values are within the value bound, and there is
room for the keys that are not present. -/
structure MapStore.Admits (store : MapStore) (writes : List (Option CString × Option CString))
    (bindings : List (CString × CString)) : Prop where
  writes_eq : writes = bindings.map fun binding => (some binding.1, some binding.2)
  nodup : (bindings.map Prod.fst).Nodup
  keys_fit : ∀ binding ∈ bindings, store.limits.fitsKey binding.1
  values_fit : ∀ binding ∈ bindings, store.limits.fitsValue binding.2
  room : MapStore.fresh store.map bindings ≤ store.limits.capacity - store.size

/-- The calls that make the writes one after the other. -/
def setCalls (handle : Nat) (writes : List (Option CString × Option CString)) : List StoreCall :=
  writes.map fun write => .set (some handle) write.1 write.2

namespace MapStore

/-- Bindings that may be made are read back from their writes. -/
theorem readWrites_of_bindable {limits : StoreLimits} {seen : List CString}
    {bindings : List (CString × CString)} (hbindable : Bindable limits seen bindings) :
    readWrites limits (bindings.map fun binding => (some binding.1, some binding.2)) seen =
      .ok bindings := by
  induction bindings generalizing seen with
  | nil => rfl
  | cons binding rest ih =>
      obtain ⟨key, value⟩ := binding
      obtain ⟨hhead, hnodup⟩ := List.nodup_cons.mp hbindable.nodup
      obtain ⟨⟨hpositive, hkey⟩, hvalue⟩ := hbindable.fits (key, value) List.mem_cons_self
      have hunseen : key ∉ seen := hbindable.apart (key, value) List.mem_cons_self
      have hrest : Bindable limits (seen ++ [key]) rest := by
        refine ⟨hnodup, fun binding hmem => ?_, fun binding hmem =>
          hbindable.fits binding (List.mem_cons_of_mem _ hmem)⟩
        rw [List.mem_append, List.mem_singleton, not_or]
        refine ⟨hbindable.apart binding (List.mem_cons_of_mem _ hmem), ?_⟩
        intro hsame
        exact hhead (List.mem_map.mpr ⟨binding, hmem, hsame⟩)
      have hempty : ¬ key.length = 0 := Nat.pos_iff_ne_zero.mp hpositive
      have hshort : value.length ≤ limits.maxValueBytes := hvalue
      have hlong : ¬ (key.length > limits.maxKeyBytes ∨ value.length > limits.maxValueBytes) :=
        not_or.mpr ⟨Nat.not_lt.mpr hkey, Nat.not_lt.mpr hshort⟩
      rw [List.map_cons, readWrites, if_neg hempty, if_neg hlong, if_neg hunseen, ih hrest]
      rfl

end MapStore

namespace ValueStore

variable {table : ValueStore} {bindings : List (CString × CString)}

/-- Different keys that are present are no more than the entries of the store. -/
theorem length_le_size_add_fresh (hnodup : (bindings.map Prod.fst).Nodup) :
    bindings.length ≤ table.size + MapStore.fresh table.findEntry bindings := by
  let present := bindings.filter fun binding => !decide (table.findEntry binding.1 = none)
  have hpresent : (present.map Prod.fst).Nodup :=
    hnodup.sublist (List.filter_sublist.map Prod.fst)
  have hsubset : present.map Prod.fst ⊆ table.entries.keys := by
    intro key hkey
    obtain ⟨binding, hmem, rfl⟩ := List.mem_map.mp hkey
    have hfound := (List.mem_filter.mp hmem).2
    rw [Bool.not_eq_true', decide_eq_false_iff_not] at hfound
    exact SlotTable.mem_keys_iff.mpr hfound
  have hcount := (hpresent.subperm hsubset).length_le
  have hsplit := List.length_eq_length_filter_add
    (l := bindings) fun binding => decide (table.findEntry binding.1 = none)
  rw [List.length_map] at hcount
  have hsize : table.size = table.entries.keys.length := table.size_eq
  simp only [present] at hcount
  rw [MapStore.fresh]
  omega

/-- A batch is accepted exactly when it is admissible. -/
theorem setMany_ok_iff (writes : List (Option CString × Option CString)) :
    (table.toMap.setMany writes).2 = .ok ↔ ∃ bindings, table.toMap.Admits writes bindings := by
  have hle := table.size_le
  rw [MapStore.setMany]
  constructor
  · intro hok
    split at hok
    · cases hok
    cases hread : MapStore.readWrites table.toMap.limits writes [] with
    | error status =>
        rw [hread] at hok
        obtain rfl : status = .ok := hok
        exact absurd rfl (MapStore.readWrites_error hread)
    | ok bindings =>
        rw [hread] at hok
        obtain ⟨hwrites, hbindable⟩ := MapStore.readWrites_ok hread
        refine ⟨bindings, hwrites, hbindable.nodup, fun binding hmem =>
          (hbindable.fits binding hmem).1, fun binding hmem => (hbindable.fits binding hmem).2, ?_⟩
        simp only at hok
        split at hok
        · cases hok
        · omega
  · rintro ⟨bindings, hadmits⟩
    obtain ⟨rfl, hnodup, hkeys, hvalues, hroom⟩ := hadmits
    have hbindable : Bindable table.toMap.limits [] bindings :=
      ⟨hnodup, fun _ _ => List.not_mem_nil,
        fun binding hmem => ⟨hkeys binding hmem, hvalues binding hmem⟩⟩
    have hread := MapStore.readWrites_of_bindable hbindable
    have hlength : bindings.length ≤ table.size + MapStore.fresh table.findEntry bindings :=
      length_le_size_add_fresh hnodup
    rw [toMap_size, toMap_limits, toMap_map] at hroom
    rw [hread, if_neg (by rw [List.length_map, toMap_limits]; omega)]
    simp only [toMap_size, toMap_limits, toMap_map]
    rw [if_neg (by omega)]

end ValueStore

/-! ## Single writes through a handle -/

/-- Single writes through a handle are writes of its store. -/
theorem StoreOps.drive_setCalls {σ : Type} {ops : StoreOps σ} {handle : Nat}
    (writes : List (Option CString × Option CString)) {handles : Handles σ} {impl : σ}
    (himpl : handles handle = some impl) :
    drive ops.step handles (setCalls handle writes) =
      Function.update handles handle
        (some (writes.foldl (fun impl write => (ops.set impl write.1 write.2).1) impl)) := by
  induction writes generalizing handles impl with
  | nil =>
      rw [List.foldl_nil, ← himpl, Function.update_eq_self]
      rfl
  | cons write rest ih =>
      have hstep : (ops.step handles (.set (some handle) write.1 write.2)).1 =
          Function.update handles handle (some (ops.set impl write.1 write.2).1) := by
        simp only [StoreOps.step, StoreOps.change, StoreOps.storeImpl_some himpl]
      have hrest := @ih (Function.update handles handle
        (some (ops.set impl write.1 write.2).1)) _ (Function.update_self _ _ _)
      rw [Function.update_idem, ← hstep] at hrest
      exact hrest

/-- Bindings that find room are accepted one after the other. -/
theorem answers_setCalls {handle : Nat} {bindings : List (CString × CString)}
    (hnodup : (bindings.map Prod.fst).Nodup) {handles : Handles ValueStoreImpl}
    {impl : ValueStoreImpl} {table : ValueStore} (himpl : handles handle = some impl)
    (hrealizes : ValueStoreImpl.Realizes impl table)
    (hfits : ∀ binding ∈ bindings,
      table.limits.fitsKey binding.1 ∧ table.limits.fitsValue binding.2)
    (hroom : table.size + MapStore.fresh table.findEntry bindings ≤ table.limits.capacity) :
    ∀ reply ∈ answers memoryOps.step handles
        (setCalls handle (bindings.map fun binding => (some binding.1, some binding.2))),
      reply.status = .ok := by
  induction bindings generalizing handles impl table with
  | nil => exact fun reply hreply => absurd hreply List.not_mem_nil
  | cons binding rest ih =>
      obtain ⟨key, value⟩ := binding
      obtain ⟨hhead, hrest⟩ := List.nodup_cons.mp hnodup
      obtain ⟨hkey, hvalue⟩ := hfits (key, value) List.mem_cons_self
      rw [MapStore.fresh_cons] at hroom
      have hfree : table.findEntry key = none → table.size < table.limits.capacity := by
        intro hmissing
        simp only [hmissing, if_true] at hroom
        omega
      obtain ⟨next, hset, hlimits, hsize, hmap⟩ := ValueStore.set_of_room hkey hvalue hfree
      obtain ⟨hnext, hstatus⟩ := hrealizes.set (some key) (some value)
      rw [hset] at hnext hstatus
      have hstep : memoryOps.step handles (.set (some handle) (some key) (some value)) =
          (Function.update handles handle (some (impl.set (some key) (some value)).1),
            { status := .ok }) := by
        simp only [StoreOps.step, StoreOps.change, StoreOps.storeImpl_some himpl]
        exact congrArg (fun status => (_, ({ status := status } : StoreReply))) hstatus
      intro reply hreply
      rcases List.mem_cons.mp hreply with rfl | hreply
      · exact congrArg (fun result => result.2.status) hstep
      · rw [hstep] at hreply
        refine ih hrest (Function.update_self _ _ _) hnext (fun binding hmem => ?_) ?_ reply hreply
        · rw [hlimits]
          exact hfits binding (List.mem_cons_of_mem _ hmem)
        · rw [hmap, MapStore.fresh_update _ hhead, hsize, hlimits]
          omega

/-! ## Every reachable store -/

/-- What a batch does to a program that holds a store with a given map. -/
structure BatchOutcome (calls : List StoreCall) (handle : Nat)
    (writes : List (Option CString × Option CString)) (store : MapStore) : Prop where
  accepted_iff :
    (memoryOps.step (memoryOps.after calls) (.setMany (some handle) (some writes))).2.status = .ok ↔
      ∃ bindings, store.Admits writes bindings
  sequential :
    (memoryOps.step (memoryOps.after calls) (.setMany (some handle) (some writes))).2.status = .ok →
    memoryOps.after (calls ++ [.setMany (some handle) (some writes)]) =
        memoryOps.after (calls ++ setCalls handle writes) ∧
      ∀ reply ∈ answers memoryOps.step (memoryOps.after calls) (setCalls handle writes),
        reply.status = .ok
  bound : ∀ bindings, store.Admits writes bindings →
    ∃ next, memoryOps.after (calls ++ [.setMany (some handle) (some writes)]) handle = some next ∧
      next.Denotes { store with map := MapStore.bindAll store.map bindings }
  refused :
    (memoryOps.step (memoryOps.after calls) (.setMany (some handle) (some writes))).2.status ≠ .ok →
    memoryOps.after (calls ++ [.setMany (some handle) (some writes)]) = memoryOps.after calls

/-- A batch is all or nothing, and all of it is the single writes in order. -/
def BatchSequential (calls : List StoreCall) (handle : Nat)
    (writes : List (Option CString × Option CString)) : Prop :=
  ∀ impl, memoryOps.after calls handle = some impl →
    ∃ store : MapStore, impl.Denotes store ∧ BatchOutcome calls handle writes store

/-- An accepted batch on memory has made the single writes. -/
theorem ValueStoreImpl.setMany_ok {impl : ValueStoreImpl}
    {writes : List (Option CString × Option CString)} (hok : (impl.setMany writes).2 = .ok) :
    (impl.setMany writes).1 =
      writes.foldl (fun impl write => (impl.set write.1 write.2).1) impl := by
  have hchecked : ∀ (writes : List (Option CString × Option CString)) (seen : List CString)
      (needed : Nat), impl.checkWrites writes seen needed ≠ .error .ok := by
    intro writes seen needed
    fun_induction ValueStoreImpl.checkWrites impl writes seen needed with
    | case1 => nofun
    | case2 => nofun
    | case3 => nofun
    | case4 => nofun
    | case5 seen needed key value rest keySize hempty hlong hunseen ih => exact ih
    | case6 => nofun
  rw [ValueStoreImpl.setMany] at hok ⊢
  split at hok
  · cases hok
  rename_i hmany
  rw [if_neg hmany]
  split at hok
  · rename_i status hread
    obtain rfl : status = .ok := hok
    exact absurd hread (hchecked _ _ _)
  rename_i needed hread
  split at hok
  · cases hok
  · rename_i hfull
    exact congrArg Prod.fst (if_neg hfull)

/-- Every batch on every store that a program reaches. -/
theorem setMany_sequential (calls : List StoreCall) (handle : Nat)
    (writes : List (Option CString × Option CString)) : BatchSequential calls handle writes := by
  intro impl himpl
  rcases (memory_simulates_map.run calls).2.cases handle with
    ⟨hnone, _⟩ | ⟨held, store, hheld, hstore, table, hrealizes, rfl⟩
  · rw [hnone] at himpl
    cases himpl
  obtain rfl : held = impl := Option.some.inj (hheld.symm.trans himpl)
  have hstep : memoryOps.step (memoryOps.after calls) (.setMany (some handle) (some writes)) =
      (Function.update (memoryOps.after calls) handle (some (held.setMany writes).1),
        { status := (held.setMany writes).2 }) := by
    simp only [StoreOps.step, StoreOps.change, StoreOps.storeImpl_some himpl]
    rfl
  obtain ⟨hnext, hstatus⟩ := hrealizes.setMany writes
  have hmap := table.setMany_toMap writes
  have hiff : (held.setMany writes).2 = .ok ↔ ∃ bindings, table.toMap.Admits writes bindings := by
    rw [hstatus, ← ValueStore.setMany_ok_iff, hmap]
  refine ⟨table.toMap, ValueStoreImpl.HoldsMap.denotes ⟨table, hrealizes, rfl⟩, ?_, ?_, ?_, ?_⟩
  · rw [hstep]
    exact hiff
  · rw [hstep]
    intro hok
    obtain ⟨bindings, hadmits⟩ := hiff.mp hok
    refine ⟨?_, ?_⟩
    · rw [StoreOps.after_snoc, StoreOps.after_append, hstep, StoreOps.drive_setCalls writes himpl,
        ValueStoreImpl.setMany_ok hok]
      rfl
    · have hroom := hadmits.room
      have hle := table.size_le
      rw [ValueStore.toMap_map, ValueStore.toMap_limits, ValueStore.toMap_size] at hroom
      rw [hadmits.writes_eq]
      exact answers_setCalls hadmits.nodup himpl hrealizes
        (fun binding hmem => ⟨hadmits.keys_fit binding hmem, hadmits.values_fit binding hmem⟩)
        (by omega)
  · intro bindings hadmits
    have hok := hiff.mpr ⟨bindings, hadmits⟩
    refine ⟨(held.setMany writes).1, ?_, ?_⟩
    · rw [StoreOps.after_snoc, hstep]
      exact Function.update_self _ _ _
    · have haccepted : table.setMany writes = ((table.setMany writes).1, .ok) :=
        Prod.ext rfl (hstatus.symm.trans hok)
      obtain ⟨made, hmade, -, hlater⟩ := ValueStore.setMany_accepted haccepted
      obtain rfl : bindings = made :=
        bindings_injective (hadmits.writes_eq.symm.trans hmade)
      exact ValueStoreImpl.HoldsMap.denotes ⟨_, hnext, hlater.symm⟩
  · intro herror
    rw [StoreOps.after_snoc]
    exact memoryOps_atomic.step herror

end Praktor.Values
