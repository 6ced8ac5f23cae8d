/-
# Net effects and their replay into a slot table

A net effect lists keys with the value each one is to have, `none` standing for
removal.  Overlaying it on a partial map says what the map becomes.  A slot table
of fixed capacity cannot jump there at once: it replays the writes one by one,
and each write may find the table full.

The two results to remember are that a replay goes through exactly when every
state on the way fits the table, and that with the removals in front only the
final state matters.
-/

import Praktor.Math.SlotTable

namespace Praktor.Math

open SlotTable

universe u v

variable {κ : Type u} {ν : Type v} [DecidableEq κ]

/-! ## Overlays -/

/-- The map with the listed keys at their listed values. -/
def overlay (map : κ → Option ν) (writes : List (κ × Option ν)) : κ → Option ν :=
  fun key => (writes.lookup key).getD (map key)

/-- The keys a net effect mentions. -/
def touchedBy (writes : List (κ × Option ν)) : List κ := writes.map Prod.fst

@[simp]
theorem overlay_nil (map : κ → Option ν) : overlay map [] = map := rfl

theorem overlay_of_not_mem {map : κ → Option ν} {writes : List (κ × Option ν)} {key : κ}
    (habsent : key ∉ touchedBy writes) : overlay map writes key = map key := by
  have hlookup : writes.lookup key = none := by
    rw [List.lookup_eq_none_iff]
    intro write hwrite
    rw [bne_iff_ne]
    rintro rfl
    exact habsent (List.mem_map_of_mem hwrite)
  simp [overlay, hlookup]

/-- Writing a key first and overlaying the rest is overlaying all of it. -/
theorem overlay_cons {map : κ → Option ν} {writes : List (κ × Option ν)} {key : κ}
    (value : Option ν) (hfresh : key ∉ touchedBy writes) :
    overlay map ((key, value) :: writes) = overlay (Function.update map key value) writes := by
  funext other
  by_cases hkey : other = key
  · subst hkey
    rw [overlay_of_not_mem hfresh, Function.update_self]
    simp [overlay]
  · have hne : (other == key) = false := by simpa using hkey
    simp [overlay, List.lookup_cons, hne, Function.update_of_ne hkey]

theorem overlay_of_mem {map : κ → Option ν} {writes : List (κ × Option ν)} {key : κ}
    {value : Option ν} (hnodup : (touchedBy writes).Nodup) (hmem : (key, value) ∈ writes) :
    overlay map writes key = value := by
  induction writes generalizing map with
  | nil => simp at hmem
  | cons write rest ih =>
      obtain ⟨first, stored⟩ := write
      obtain ⟨hfresh, hrest⟩ := List.nodup_cons.mp hnodup
      rw [overlay_cons stored hfresh]
      rcases List.mem_cons.mp hmem with hhead | htail
      · rw [Prod.mk.injEq] at hhead
        rw [hhead.1, overlay_of_not_mem hfresh, Function.update_self, hhead.2]
      · exact ih hrest htail

/-- An overlay depends on its writes only as a set. -/
theorem overlay_perm {map : κ → Option ν} {first second : List (κ × Option ν)}
    (hperm : first.Perm second) (hnodup : (touchedBy first).Nodup) :
    overlay map first = overlay map second := by
  have hkeys : (touchedBy first).Perm (touchedBy second) := hperm.map Prod.fst
  funext key
  by_cases hmem : key ∈ touchedBy first
  · obtain ⟨write, hwrite, rfl⟩ := List.mem_map.mp hmem
    rw [overlay_of_mem hnodup hwrite,
      overlay_of_mem (hkeys.nodup_iff.mp hnodup) (hperm.mem_iff.mp hwrite)]
  · rw [overlay_of_not_mem hmem, overlay_of_not_mem (mt hkeys.mem_iff.mpr hmem)]

theorem domain_overlay_subset (map : κ → Option ν) (writes : List (κ × Option ν)) :
    domain (overlay map writes) ⊆ domain map ∪ ↑(touchedBy writes).toFinset := by
  intro key hkey
  by_cases hmem : key ∈ touchedBy writes
  · exact .inr (by simpa using hmem)
  · refine .inl ?_
    rw [domain, Set.mem_ofPred_eq, overlay_of_not_mem hmem] at hkey
    exact hkey

/-- Where nothing is removed, an overlay of the first writes has no more keys than the whole. -/
theorem domain_overlay_take_subset (map : κ → Option ν) {writes : List (κ × Option ν)}
    (hnodup : (touchedBy writes).Nodup) (hkept : ∀ write ∈ writes, write.2 ≠ none) (count : Nat) :
    domain (overlay map (writes.take count)) ⊆ domain (overlay map writes) := by
  intro key hkey
  rw [domain, Set.mem_ofPred_eq] at hkey ⊢
  by_cases hmem : key ∈ touchedBy writes
  · obtain ⟨write, hwrite, rfl⟩ := List.mem_map.mp hmem
    rw [overlay_of_mem hnodup hwrite]
    exact hkept write hwrite
  · have hearly : key ∉ touchedBy (writes.take count) := by
      intro hearly
      obtain ⟨write, hwrite, rfl⟩ := List.mem_map.mp hearly
      exact hmem (List.mem_map_of_mem (List.mem_of_mem_take hwrite))
    rw [overlay_of_not_mem hearly] at hkey
    rwa [overlay_of_not_mem hmem]

/-! ## Replay -/

/-- Apply the writes to a table in list order; `none` when one finds it full. -/
def SlotTable.replay : List (κ × Option ν) → SlotTable κ ν → Option (SlotTable κ ν)
  | [], table => some table
  | (key, none) :: rest, table => replay rest (table.erase key)
  | (key, some value) :: rest, table => (table.put key value).bind (replay rest)

theorem SlotTable.replay_append (first second : List (κ × Option ν)) (table : SlotTable κ ν) :
    replay (first ++ second) table = (replay first table).bind (replay second) := by
  induction first generalizing table with
  | nil => rfl
  | cons write rest ih =>
      obtain ⟨key, value⟩ := write
      cases value with
      | none => simpa [replay] using ih (table.erase key)
      | some value =>
          cases hput : table.put key value with
          | none => simp [replay, hput]
          | some next => simpa [replay, hput] using ih next

/-- A replay that goes through leaves the overlay. -/
theorem SlotTable.lookup_replay {writes : List (κ × Option ν)} {table next : SlotTable κ ν}
    (hnodup : (touchedBy writes).Nodup) (hreplay : replay writes table = some next) :
    next.lookup = overlay table.lookup writes ∧ next.slots.length = table.slots.length := by
  induction writes generalizing table with
  | nil =>
      rw [replay, Option.some.injEq] at hreplay
      simp [hreplay]
  | cons write rest ih =>
      obtain ⟨key, value⟩ := write
      obtain ⟨hfresh, hrest⟩ := List.nodup_cons.mp hnodup
      cases value with
      | none =>
          obtain ⟨hlookup, hlength⟩ := ih hrest hreplay
          rw [overlay_cons none hfresh, ← lookup_erase]
          exact ⟨hlookup, hlength.trans (length_erase table key)⟩
      | some value =>
          obtain ⟨middle, hput, hmiddle⟩ := Option.bind_eq_some_iff.mp hreplay
          obtain ⟨hlookup, hlength⟩ := ih hrest hmiddle
          rw [overlay_cons (some value) hfresh, ← lookup_put hput]
          exact ⟨hlookup, hlength.trans (length_put hput)⟩

/-- A map that a table denotes fits the table. -/
theorem SlotTable.ncard_le (table : SlotTable κ ν) :
    (domain table.lookup).ncard ≤ table.slots.length := by
  rw [ncard_domain_lookup]
  exact table.occupied_le

theorem forall_take_cons {α : Type u} (holds : List α → Prop) (head : α) (rest : List α) :
    (∀ count, holds ((head :: rest).take count)) ↔
      holds [] ∧ ∀ count, holds (head :: rest.take count) := by
  constructor
  · intro hall
    exact ⟨by simpa using hall 0, fun count => by simpa using hall (count + 1)⟩
  · rintro ⟨hnil, hcons⟩ count
    cases count with
    | zero => simpa using hnil
    | succ count => simpa using hcons count

/-- A replay goes through exactly when every map on the way fits the table. -/
theorem SlotTable.replay_isSome_iff {writes : List (κ × Option ν)} (table : SlotTable κ ν)
    (hnodup : (touchedBy writes).Nodup) :
    (replay writes table).isSome ↔ ∀ count,
      (domain (overlay table.lookup (writes.take count))).ncard ≤ table.slots.length := by
  induction writes generalizing table with
  | nil =>
      simp only [replay, Option.isSome_some, List.take_nil, overlay_nil, forall_const, true_iff]
      exact table.ncard_le
  | cons write rest ih =>
      obtain ⟨key, value⟩ := write
      obtain ⟨hfresh, hrest⟩ := List.nodup_cons.mp hnodup
      have hfreshTake (count : Nat) : key ∉ touchedBy (rest.take count) := fun hmem =>
        hfresh (by
          rw [touchedBy, List.map_take] at hmem
          exact List.mem_of_mem_take hmem)
      rw [forall_take_cons fun writes =>
        (domain (overlay table.lookup writes)).ncard ≤ table.slots.length]
      simp only [overlay_nil, table.ncard_le, true_and, overlay_cons value (hfreshTake _)]
      cases value with
      | none => rw [replay, ih (table.erase key) hrest, lookup_erase, length_erase]
      | some value =>
          rw [replay]
          cases hput : table.put key value with
          | none =>
              obtain ⟨hmissing, hfull⟩ := put_eq_none_iff.mp hput
              simp only [Option.bind_none, Option.isSome_none, Bool.false_eq_true, false_iff,
                not_forall]
              refine ⟨0, ?_⟩
              have hdomain : domain (Function.update table.lookup key (some value)) =
                  insert key (domain table.lookup) := by
                ext other
                by_cases hkey : other = key <;> simp [domain, hkey]
              have hout : key ∉ domain table.lookup := by simpa [domain] using hmissing
              rw [List.take_zero, overlay_nil, hdomain,
                Set.ncard_insert_of_notMem hout table.finite_domain_lookup, ncard_domain_lookup]
              omega
          | some middle =>
              rw [Option.bind_some, ih middle hrest, lookup_put hput, length_put hput]

/-! ## Removals first -/

/-- The writes with the removals in front. -/
def removalsFirst (writes : List (κ × Option ν)) : List (κ × Option ν) :=
  writes.filter (·.2.isNone) ++ writes.filter (·.2.isSome)

omit [DecidableEq κ] in
theorem removalsFirst_perm (writes : List (κ × Option ν)) :
    (removalsFirst writes).Perm writes := by
  have hsplit : writes.filter (·.2.isSome) = writes.filter fun write => !write.2.isNone := by
    congr 1
    funext write
    cases write.2 <;> rfl
  rw [removalsFirst, hsplit]
  exact List.filter_append_perm _ _

/-- Removals only shrink a map. -/
theorem domain_overlay_of_isNone {map : κ → Option ν} {writes : List (κ × Option ν)}
    (hremovals : ∀ write ∈ writes, write.2.isNone = true) :
    domain (overlay map writes) ⊆ domain map := by
  intro key hkey
  cases hlookup : writes.lookup key with
  | none => simpa [domain, overlay, hlookup] using hkey
  | some value =>
      obtain ⟨before, after, hsplit, _⟩ := List.lookup_eq_some_iff.mp hlookup
      have hnone : value = none := by
        simpa using hremovals (key, value) (by simp [hsplit])
      simp [domain, overlay, hlookup, hnone] at hkey

/-- Insertions only enlarge a map. -/
theorem domain_overlay_append_take {map : κ → Option ν} {writes rest : List (κ × Option ν)}
    (hinsertions : ∀ write ∈ rest, write.2.isSome = true) (count : Nat) :
    domain (overlay map (writes ++ rest.take count)) ⊆ domain (overlay map (writes ++ rest)) := by
  intro key hkey
  simp only [domain, overlay, List.lookup_append, Set.mem_ofPred_eq] at hkey ⊢
  cases hwrites : writes.lookup key with
  | some value => simpa [hwrites] using hkey
  | none =>
      cases hrest : rest.lookup key with
      | some value =>
          obtain ⟨before, after, hsplit, _⟩ := List.lookup_eq_some_iff.mp hrest
          have hsome := hinsertions (key, value) (by simp [hsplit])
          simpa [Option.isSome_iff_ne_none] using hsome
      | none =>
          have htake : (rest.take count).lookup key = none := by
            rw [List.lookup_eq_none_iff] at hrest ⊢
            exact fun write hwrite => hrest write (List.mem_of_mem_take hwrite)
          simpa [hwrites, htake] using hkey

/-- With the removals in front nothing on the way is larger than both ends. -/
theorem SlotTable.replay_removalsFirst_isSome_iff {writes : List (κ × Option ν)}
    (table : SlotTable κ ν) (hnodup : (touchedBy writes).Nodup) :
    (replay (removalsFirst writes) table).isSome ↔
      (domain (overlay table.lookup writes)).ncard ≤ table.slots.length := by
  have hperm := removalsFirst_perm writes
  have hkeys : (touchedBy (removalsFirst writes)).Nodup :=
    (hperm.map Prod.fst).nodup_iff.mpr hnodup
  rw [replay_isSome_iff table hkeys, ← overlay_perm hperm hkeys]
  constructor
  · intro hall
    simpa using hall (removalsFirst writes).length
  · intro hfinal count
    have hfinite : (domain (overlay table.lookup (removalsFirst writes))).Finite :=
      (table.finite_domain_lookup.union (Finset.finite_toSet _)).subset
        (domain_overlay_subset _ _)
    rw [removalsFirst, List.take_append]
    by_cases hcount : count ≤ (writes.filter (·.2.isNone)).length
    · -- among the removals the map only shrinks
      rw [Nat.sub_eq_zero_of_le hcount, List.take_zero, List.append_nil]
      refine (Set.ncard_le_ncard (domain_overlay_of_isNone fun write hwrite => ?_)
        table.finite_domain_lookup).trans table.ncard_le
      exact (List.mem_filter.mp (List.mem_of_mem_take hwrite)).2
    · -- among the insertions it stays below the final map
      rw [List.take_of_length_le (Nat.le_of_not_le hcount)]
      refine (Set.ncard_le_ncard (domain_overlay_append_take (fun write hwrite => ?_) _)
        hfinite).trans hfinal
      exact (List.mem_filter.mp hwrite).2

end Praktor.Math
