/-
# Slot tables

A slot table is an array of a fixed number of slots, each free or holding one
key with its value, in which no key stands twice.  A key that is present is
updated in place, a new one takes the first free slot, and only a table without
a free slot refuses it.  The table forgets where a key stands as soon as it is
read through `lookup`, so everything below is about the partial map it denotes
and about the number of its keys.
-/

import Mathlib.Data.Finset.Card
import Mathlib.Data.Set.Card
import Mathlib.Logic.Function.Basic

namespace Praktor.Math

universe u v

variable {κ : Type u} {ν : Type v}

/-- The keys of a list of slots, in slot order. -/
def SlotTable.keysOf (slots : List (Option (κ × ν))) : List κ :=
  slots.filterMap (Option.map Prod.fst)

/-- A fixed number of slots with pairwise distinct keys. -/
structure SlotTable (κ : Type u) (ν : Type v) where
  slots : List (Option (κ × ν))
  distinct : (SlotTable.keysOf slots).Nodup

namespace SlotTable

/-- The keys that are present, in slot order. -/
def keys (table : SlotTable κ ν) : List κ := keysOf table.slots

/-- The number of occupied slots. -/
def occupied (table : SlotTable κ ν) : Nat := table.keys.length

/-- A table whose slots are all free. -/
def blank (count : Nat) : SlotTable κ ν where
  slots := List.replicate count none
  distinct := by simp [keysOf]

theorem nodup_keys (table : SlotTable κ ν) : table.keys.Nodup := table.distinct

theorem occupied_le (table : SlotTable κ ν) : table.occupied ≤ table.slots.length :=
  List.length_filterMap_le _ _

theorem mem_keysOf {slots : List (Option (κ × ν))} {key : κ} :
    key ∈ keysOf slots ↔ ∃ value, some (key, value) ∈ slots := by
  simp only [keysOf, List.mem_filterMap]
  constructor
  · rintro ⟨slot, hslot, hkey⟩
    obtain ⟨entry, rfl, rfl⟩ := Option.map_eq_some_iff.mp hkey
    exact ⟨entry.2, hslot⟩
  · rintro ⟨value, hslot⟩
    exact ⟨some (key, value), hslot, rfl⟩

@[simp]
theorem keysOf_cons_none (slots : List (Option (κ × ν))) : keysOf (none :: slots) = keysOf slots :=
  rfl

@[simp]
theorem keysOf_cons_some (entry : κ × ν) (slots : List (Option (κ × ν))) :
    keysOf (some entry :: slots) = entry.1 :: keysOf slots := rfl

section Operations

variable [DecidableEq κ]

/-! ## Reading -/

/-- The value the first slot with this key holds. -/
def find : List (Option (κ × ν)) → κ → Option ν
  | [], _ => none
  | none :: rest, key => find rest key
  | some entry :: rest, key => if entry.1 = key then some entry.2 else find rest key

/-- The value of a key. -/
def lookup (table : SlotTable κ ν) (key : κ) : Option ν := find table.slots key

theorem find_eq_some_iff {slots : List (Option (κ × ν))} (hdistinct : (keysOf slots).Nodup)
    {key : κ} {value : ν} : find slots key = some value ↔ some (key, value) ∈ slots := by
  induction slots with
  | nil => simp [find]
  | cons slot rest ih =>
      cases slot with
      | none => simpa [find] using ih hdistinct
      | some entry =>
          obtain ⟨first, stored⟩ := entry
          obtain ⟨hfresh, hrest⟩ := List.nodup_cons.mp hdistinct
          by_cases hkey : first = key
          · subst hkey
            have habsent : some (first, value) ∉ rest := fun hmem =>
              hfresh (mem_keysOf.mpr ⟨value, hmem⟩)
            simp [find, habsent, eq_comm]
          · simp [find, hkey, Ne.symm hkey, ih hrest]

theorem lookup_eq_some_iff {table : SlotTable κ ν} {key : κ} {value : ν} :
    table.lookup key = some value ↔ some (key, value) ∈ table.slots :=
  find_eq_some_iff table.distinct

theorem mem_keys_iff {table : SlotTable κ ν} {key : κ} :
    key ∈ table.keys ↔ table.lookup key ≠ none := by
  rw [keys, mem_keysOf, Option.ne_none_iff_exists']
  simp only [lookup_eq_some_iff]

@[simp]
theorem lookup_blank (count : Nat) (key : κ) : (blank count : SlotTable κ ν).lookup key = none := by
  rw [← not_not (a := (blank count : SlotTable κ ν).lookup key = none)]
  intro hfound
  have hmem := mem_keys_iff.mpr hfound
  rw [keys, mem_keysOf] at hmem
  obtain ⟨value, hslot⟩ := hmem
  simp [blank] at hslot

/-- The keys of a partial map. -/
def domain (map : κ → Option ν) : Set κ := { key | map key ≠ none }

theorem domain_lookup (table : SlotTable κ ν) :
    domain table.lookup = ↑table.keys.toFinset := by
  ext key
  simp [domain, mem_keys_iff]

/-- The number of occupied slots is the number of keys of the denoted map. -/
theorem ncard_domain_lookup (table : SlotTable κ ν) :
    (domain table.lookup).ncard = table.occupied := by
  rw [domain_lookup, Set.ncard_coe_finset, List.toFinset_card_of_nodup table.nodup_keys, occupied]

theorem finite_domain_lookup (table : SlotTable κ ν) : (domain table.lookup).Finite := by
  rw [domain_lookup]
  exact Finset.finite_toSet _

/-! ## Writing -/

/-- Put an entry into the first free slot. -/
def fill : List (Option (κ × ν)) → κ × ν → Option (List (Option (κ × ν)))
  | [], _ => none
  | none :: rest, entry => some (some entry :: rest)
  | some stored :: rest, entry => (fill rest entry).map (some stored :: ·)

/-- Replace the value of a key that is present. -/
def overwrite (slots : List (Option (κ × ν))) (key : κ) (value : ν) : List (Option (κ × ν)) :=
  slots.map fun slot => slot.map fun entry => if entry.1 = key then (key, value) else entry

/-- Free the slot that holds a key. -/
def release (slots : List (Option (κ × ν))) (key : κ) : List (Option (κ × ν)) :=
  slots.map fun slot => slot.bind fun entry => if entry.1 = key then none else some entry

theorem keysOf_overwrite (slots : List (Option (κ × ν))) (key : κ) (value : ν) :
    keysOf (overwrite slots key value) = keysOf slots := by
  induction slots with
  | nil => rfl
  | cons slot rest ih =>
      simp only [overwrite] at ih
      cases slot with
      | none => simpa [overwrite] using ih
      | some entry =>
          by_cases hkey : entry.1 = key <;> simp [overwrite, hkey, ih]

theorem keysOf_release (slots : List (Option (κ × ν))) (key : κ) :
    keysOf (release slots key) = (keysOf slots).filter (· != key) := by
  induction slots with
  | nil => rfl
  | cons slot rest ih =>
      simp only [release] at ih
      cases slot with
      | none => simpa [release] using ih
      | some entry =>
          by_cases hkey : entry.1 = key <;> simp [release, hkey, ih]

omit [DecidableEq κ] in
theorem fill_spec :
    ∀ {slots next : List (Option (κ × ν))} {entry : κ × ν}, fill slots entry = some next →
      (keysOf next).Perm (entry.1 :: keysOf slots) ∧ next.length = slots.length ∧
        ∀ slot, slot ∈ next → slot = some entry ∨ slot ∈ slots := by
  intro slots
  induction slots with
  | nil =>
      intro next entry hfill
      simp [fill] at hfill
  | cons slot rest ih =>
      intro next entry hfill
      cases slot with
      | none =>
          obtain rfl : some entry :: rest = next := by simpa [fill] using hfill
          refine ⟨by simp, by simp, fun slot hslot => ?_⟩
          rcases List.mem_cons.mp hslot with hhead | htail
          · exact .inl hhead
          · exact .inr (List.mem_cons_of_mem _ htail)
      | some stored =>
          obtain ⟨tail, htail, rfl⟩ := Option.map_eq_some_iff.mp hfill
          obtain ⟨hkeys, hlength, hslots⟩ := ih htail
          refine ⟨?_, by simp [hlength], fun slot hslot => ?_⟩
          · simpa using (hkeys.cons stored.1).trans (List.Perm.swap _ _ _)
          · rcases List.mem_cons.mp hslot with hhead | hrest
            · exact .inr (hhead ▸ List.mem_cons_self)
            · rcases hslots slot hrest with hnew | hold
              · exact .inl hnew
              · exact .inr (List.mem_cons_of_mem _ hold)

omit [DecidableEq κ] in
theorem mem_of_fill {slots next : List (Option (κ × ν))} {entry : κ × ν}
    (hfill : fill slots entry = some next) :
    some entry ∈ next ∧ ∀ stored, some stored ∈ slots → some stored ∈ next := by
  induction slots generalizing next with
  | nil => simp [fill] at hfill
  | cons slot rest ih =>
      cases slot with
      | none =>
          obtain rfl : some entry :: rest = next := by simpa [fill] using hfill
          exact ⟨List.mem_cons_self, fun stored hmem => by simpa using Or.inr hmem⟩
      | some other =>
          obtain ⟨tail, htail, rfl⟩ := Option.map_eq_some_iff.mp hfill
          obtain ⟨hentry, hstored⟩ := ih htail
          refine ⟨by simp [hentry], fun stored hmem => ?_⟩
          rcases List.mem_cons.mp hmem with hhead | hrest
          · simp [hhead]
          · exact List.mem_cons_of_mem _ (hstored stored hrest)

omit [DecidableEq κ] in
/-- Only a full table has no free slot. -/
theorem fill_eq_none_iff (slots : List (Option (κ × ν))) (entry : κ × ν) :
    fill slots entry = none ↔ (keysOf slots).length = slots.length := by
  induction slots with
  | nil => simp [fill, keysOf]
  | cons slot rest ih =>
      cases slot with
      | none =>
          have hle : (keysOf rest).length ≤ rest.length := List.length_filterMap_le _ _
          simp only [fill, reduceCtorEq, keysOf_cons_none, List.length_cons, false_iff]
          omega
      | some stored => simp [fill, ih]

/-- Set the value of a key; `none` when the key is new and no slot is free. -/
def put (table : SlotTable κ ν) (key : κ) (value : ν) : Option (SlotTable κ ν) :=
  if hpresent : key ∈ table.keys then
    some ⟨overwrite table.slots key value, keysOf_overwrite table.slots key value ▸ table.distinct⟩
  else
    match hfill : fill table.slots (key, value) with
    | none => none
    | some slots =>
        some ⟨slots, ((fill_spec hfill).1.nodup_iff).mpr (table.nodup_keys.cons hpresent)⟩

/-- Remove a key, present or not. -/
def erase (table : SlotTable κ ν) (key : κ) : SlotTable κ ν where
  slots := release table.slots key
  distinct := keysOf_release table.slots key ▸ table.nodup_keys.filter _

/-! ## What the operations do to the denoted map -/

theorem mem_overwrite {slots : List (Option (κ × ν))} {key : κ} {value : ν} {entry : κ × ν}
    (hpresent : key ∈ keysOf slots) :
    some entry ∈ overwrite slots key value ↔
      entry = (key, value) ∨ entry.1 ≠ key ∧ some entry ∈ slots := by
  simp only [overwrite, List.mem_map, Option.map_eq_some_iff]
  constructor
  · rintro ⟨slot, hslot, stored, rfl, hstored⟩
    by_cases hkey : stored.1 = key
    · exact .inl (by simpa [hkey, eq_comm] using hstored)
    · rw [if_neg hkey] at hstored
      exact .inr ⟨hstored ▸ hkey, hstored ▸ hslot⟩
  · rintro (rfl | ⟨hkey, hslot⟩)
    · obtain ⟨stored, hslot⟩ := mem_keysOf.mp hpresent
      exact ⟨_, hslot, _, rfl, by simp⟩
    · exact ⟨_, hslot, _, rfl, by simp [hkey]⟩

theorem mem_release {slots : List (Option (κ × ν))} {key : κ} {entry : κ × ν} :
    some entry ∈ release slots key ↔ entry.1 ≠ key ∧ some entry ∈ slots := by
  simp only [release, List.mem_map, Option.bind_eq_some_iff]
  constructor
  · rintro ⟨slot, hslot, stored, rfl, hstored⟩
    by_cases hkey : stored.1 = key
    · simp [hkey] at hstored
    · rw [if_neg hkey, Option.some.injEq] at hstored
      exact ⟨hstored ▸ hkey, hstored ▸ hslot⟩
  · rintro ⟨hkey, hslot⟩
    exact ⟨_, hslot, _, rfl, by simp [hkey]⟩

omit [DecidableEq κ] in
/-- Two partial maps agree when they have the same entries. -/
theorem map_ext {first second : κ → Option ν}
    (hentries : ∀ key value, first key = some value ↔ second key = some value) :
    first = second := by
  funext key
  exact Option.ext fun value => by simpa using hentries key value

theorem update_eq_some_iff {map : κ → Option ν} {key other : κ} {update : Option ν} {value : ν} :
    Function.update map key update other = some value ↔
      (other = key ∧ update = some value) ∨ (other ≠ key ∧ map other = some value) := by
  by_cases hkey : other = key
  · subst hkey
    simp
  · simp [hkey]

/-- The slots after a put are those of an overwrite or of a fill. -/
theorem put_cases {table next : SlotTable κ ν} {key : κ} {value : ν}
    (hput : table.put key value = some next) :
    (key ∈ table.keys ∧ next.slots = overwrite table.slots key value) ∨
      (key ∉ table.keys ∧ fill table.slots (key, value) = some next.slots) := by
  rw [put] at hput
  split at hput
  · rename_i hpresent
    rw [Option.some.injEq] at hput
    exact .inl ⟨hpresent, hput ▸ rfl⟩
  · rename_i habsent
    split at hput
    · contradiction
    · rename_i slots hfill
      rw [Option.some.injEq] at hput
      exact .inr ⟨habsent, hput ▸ hfill⟩

theorem lookup_put {table next : SlotTable κ ν} {key : κ} {value : ν}
    (hput : table.put key value = some next) :
    next.lookup = Function.update table.lookup key (some value) := by
  refine map_ext fun other stored => ?_
  rw [lookup_eq_some_iff, update_eq_some_iff, lookup_eq_some_iff]
  rcases put_cases hput with ⟨hpresent, hslots⟩ | ⟨habsent, hfill⟩
  · rw [hslots, mem_overwrite hpresent]
    simp [Prod.mk.injEq, eq_comm]
  · constructor
    · intro hmem
      rcases (fill_spec hfill).2.2 _ hmem with hnew | hold
      · simp only [Option.some.injEq, Prod.mk.injEq] at hnew
        exact .inl ⟨hnew.1, by rw [hnew.2]⟩
      · refine .inr ⟨?_, hold⟩
        rintro rfl
        exact habsent (mem_keysOf.mpr ⟨stored, hold⟩)
    · rintro (⟨rfl, hvalue⟩ | ⟨_, hold⟩)
      · rw [Option.some.injEq] at hvalue
        exact hvalue ▸ (mem_of_fill hfill).1
      · exact (mem_of_fill hfill).2 _ hold

theorem length_put {table next : SlotTable κ ν} {key : κ} {value : ν}
    (hput : table.put key value = some next) : next.slots.length = table.slots.length := by
  rcases put_cases hput with ⟨_, hslots⟩ | ⟨_, hfill⟩
  · simp [hslots, overwrite]
  · exact (fill_spec hfill).2.1

theorem occupied_put {table next : SlotTable κ ν} {key : κ} {value : ν}
    (hput : table.put key value = some next) :
    next.occupied = table.occupied + if table.lookup key = none then 1 else 0 := by
  rcases put_cases hput with ⟨hpresent, hslots⟩ | ⟨habsent, hfill⟩
  · have hfound := mem_keys_iff.mp hpresent
    simp [occupied, keys, hslots, keysOf_overwrite, hfound]
  · have hmissing : table.lookup key = none := by
      simpa using mt mem_keys_iff.mpr habsent
    simpa [occupied, keys, hmissing] using (fill_spec hfill).1.length_eq

/-- Only a new key in a full table is refused. -/
theorem put_eq_none_iff {table : SlotTable κ ν} {key : κ} {value : ν} :
    table.put key value = none ↔
      table.lookup key = none ∧ table.occupied = table.slots.length := by
  have hmem : key ∈ table.keys ↔ table.lookup key ≠ none := mem_keys_iff
  rw [put]
  split
  · rename_i hpresent
    simp [hmem.mp hpresent]
  · rename_i habsent
    have hmissing : table.lookup key = none := by simpa using mt hmem.mpr habsent
    simp only [hmissing, true_and, occupied, keys]
    rw [← fill_eq_none_iff table.slots (key, value)]
    split
    · rename_i hfill
      simp [hfill]
    · rename_i slots hfill
      simp [hfill]

theorem lookup_erase (table : SlotTable κ ν) (key : κ) :
    (table.erase key).lookup = Function.update table.lookup key none := by
  refine map_ext fun other stored => ?_
  rw [lookup_eq_some_iff, update_eq_some_iff, lookup_eq_some_iff]
  show some (other, stored) ∈ release table.slots key ↔ _
  rw [mem_release]
  simp

@[simp]
theorem length_erase (table : SlotTable κ ν) (key : κ) :
    (table.erase key).slots.length = table.slots.length := by
  simp [erase, release]

/-- Removing an absent key changes nothing. -/
theorem erase_of_lookup_eq_none {table : SlotTable κ ν} {key : κ}
    (hmissing : table.lookup key = none) : table.erase key = table := by
  obtain ⟨slots, hdistinct⟩ := table
  have habsent : key ∉ keysOf slots := fun hmem => mem_keys_iff.mp hmem hmissing
  have hslots : release slots key = slots := by
    conv_rhs => rw [← List.map_id slots]
    refine List.map_congr_left fun slot hslot => ?_
    cases slot with
    | none => rfl
    | some entry =>
        have hne : entry.1 ≠ key := fun hkey => habsent (mem_keysOf.mpr ⟨entry.2, hkey ▸ hslot⟩)
        simp [hne]
  simp only [erase, hslots]

theorem occupied_erase {table : SlotTable κ ν} {key : κ} (hfound : table.lookup key ≠ none) :
    (table.erase key).occupied + 1 = table.occupied := by
  have hmem := mem_keys_iff.mpr hfound
  have hkeys : (table.erase key).keys = table.keys.erase key := by
    rw [List.Nodup.erase_eq_filter table.nodup_keys]
    exact keysOf_release table.slots key
  rw [occupied, occupied, hkeys, List.length_erase_of_mem hmem]
  have := List.length_pos_of_mem hmem
  omega

/-! ## Where a key stands -/

/-- A slot that holds a key. -/
def holdsKey (key : κ) (slot : Option (κ × ν)) : Bool :=
  match slot with
  | none => false
  | some entry => entry.1 = key

theorem holdsKey_iff {key : κ} {slot : Option (κ × ν)} :
    holdsKey key slot = true ↔ ∃ value, slot = some (key, value) := by
  cases slot with
  | none => simp [holdsKey]
  | some entry =>
      obtain ⟨first, stored⟩ := entry
      simp [holdsKey]

/-- A key is found in the first slot that holds it. -/
theorem find_eq_of_findIdx? (slots : List (Option (κ × ν))) (key : κ) :
    find slots key = ((slots.findIdx? (holdsKey key)).bind fun index => slots[index]?.join).map
      Prod.snd := by
  induction slots with
  | nil => rfl
  | cons slot rest ih =>
      cases slot with
      | none =>
          simpa [find, List.findIdx?_cons, holdsKey, Option.bind_map, Function.comp_def] using ih
      | some entry =>
          by_cases hkey : entry.1 = key
          · simp [find, List.findIdx?_cons, holdsKey, hkey]
          · simpa [find, List.findIdx?_cons, holdsKey, hkey, Option.bind_map, Function.comp_def]
              using ih

/-- Changing every slot that holds a key is changing the one that does. -/
theorem map_eq_set {slots : List (Option (κ × ν))} (hdistinct : (keysOf slots).Nodup)
    {change : Option (κ × ν) → Option (κ × ν)} {key : κ} {value : ν}
    (hchange : ∀ slot, holdsKey key slot = false → change slot = slot) {index : Nat}
    (hslot : slots[index]? = some (some (key, value))) :
    slots.map change = slots.set index (change (some (key, value))) := by
  induction slots generalizing index with
  | nil => simp at hslot
  | cons slot rest ih =>
      have hrest : (keysOf rest).Nodup := by
        cases slot with
        | none => exact hdistinct
        | some entry => exact (List.nodup_cons.mp hdistinct).2
      cases index with
      | zero =>
          obtain rfl : slot = some (key, value) := by simpa using hslot
          have hother : ∀ slot ∈ rest, change slot = slot := fun slot hmem => hchange slot (by
            rw [← Bool.not_eq_true, holdsKey_iff]
            rintro ⟨stored, rfl⟩
            exact (List.nodup_cons.mp hdistinct).1 (mem_keysOf.mpr ⟨stored, hmem⟩))
          rw [List.map_cons, List.set_cons_zero, List.map_congr_left hother, List.map_id']
      | succ index =>
          have hmem : some (key, value) ∈ rest := List.mem_of_getElem? (by simpa using hslot)
          have hhead : change slot = slot := hchange slot (by
            rw [← Bool.not_eq_true, holdsKey_iff]
            rintro ⟨stored, rfl⟩
            exact (List.nodup_cons.mp hdistinct).1 (mem_keysOf.mpr ⟨value, hmem⟩))
          rw [List.map_cons, List.set_cons_succ, hhead, ih hrest (by simpa using hslot)]

/-- Overwriting changes the slot that holds the key. -/
theorem overwrite_eq_set {slots : List (Option (κ × ν))} (hdistinct : (keysOf slots).Nodup)
    {key : κ} {old : ν} {index : Nat} (hslot : slots[index]? = some (some (key, old))) (value : ν) :
    overwrite slots key value = slots.set index (some (key, value)) := by
  have hother (slot : Option (κ × ν)) (hslot : holdsKey key slot = false) :
      (slot.map fun entry => if entry.1 = key then (key, value) else entry) = slot := by
    cases slot with
    | none => rfl
    | some entry =>
        have hkey : entry.1 ≠ key := by simpa [holdsKey] using hslot
        simp [hkey]
  rw [overwrite, map_eq_set hdistinct hother hslot]
  simp

/-- Releasing a key frees the slot that holds it. -/
theorem release_eq_set {slots : List (Option (κ × ν))} (hdistinct : (keysOf slots).Nodup)
    {key : κ} {old : ν} {index : Nat} (hslot : slots[index]? = some (some (key, old))) :
    release slots key = slots.set index none := by
  have hother (slot : Option (κ × ν)) (hslot : holdsKey key slot = false) :
      (slot.bind fun entry => if entry.1 = key then none else some entry) = slot := by
    cases slot with
    | none => rfl
    | some entry =>
        have hkey : entry.1 ≠ key := by simpa [holdsKey] using hslot
        simp [hkey]
  rw [release, map_eq_set hdistinct hother hslot]
  simp

omit [DecidableEq κ] in
/-- A new entry goes into the first free slot. -/
theorem fill_eq_set (slots : List (Option (κ × ν))) (entry : κ × ν) :
    fill slots entry =
      (slots.findIdx? Option.isNone).map fun index => slots.set index (some entry) := by
  induction slots with
  | nil => rfl
  | cons slot rest ih =>
      cases slot with
      | none => simp [fill, List.findIdx?_cons]
      | some stored => simp [fill, List.findIdx?_cons, ih, Function.comp_def]

/-- The slot a search for a key ends at. -/
theorem getElem?_of_findIdx? {slots : List (Option (κ × ν))} {key : κ} {index : Nat}
    (hfound : slots.findIdx? (holdsKey key) = some index) :
    ∃ value, slots[index]? = some (some (key, value)) := by
  obtain ⟨hlt, hholds, _⟩ := List.findIdx?_eq_some_iff_getElem.mp hfound
  obtain ⟨value, hvalue⟩ := holdsKey_iff.mp hholds
  exact ⟨value, List.getElem?_eq_some_iff.mpr ⟨hlt, hvalue⟩⟩

/-- A put by places: into the slot that holds the key, else into the first free one. -/
theorem put_slots (table : SlotTable κ ν) (key : κ) (value : ν) :
    (table.put key value).map slots =
      match table.slots.findIdx? (holdsKey key) with
      | some index => some (table.slots.set index (some (key, value)))
      | none => (table.slots.findIdx? Option.isNone).map fun index =>
          table.slots.set index (some (key, value)) := by
  cases hfound : table.slots.findIdx? (holdsKey key) with
  | some index =>
      obtain ⟨old, hslot⟩ := getElem?_of_findIdx? hfound
      have hpresent : key ∈ table.keys :=
        mem_keysOf.mpr ⟨old, List.mem_of_getElem? hslot⟩
      rw [put, dif_pos hpresent, Option.map_some]
      exact congrArg some (overwrite_eq_set table.distinct hslot value)
  | none =>
      have habsent : key ∉ table.keys := by
        rw [mem_keys_iff, not_not, lookup, find_eq_of_findIdx?, hfound]
        rfl
      simp only [← fill_eq_set]
      rw [put, dif_neg habsent]
      split
      · rename_i hfill
        simp [hfill]
      · rename_i filled hfill
        simp [hfill]

/-- The slots after an erase, by places. -/
theorem erase_slots {table : SlotTable κ ν} {key : κ} {index : Nat}
    (hfound : table.slots.findIdx? (holdsKey key) = some index) :
    (table.erase key).slots = table.slots.set index none := by
  obtain ⟨old, hslot⟩ := getElem?_of_findIdx? hfound
  exact release_eq_set table.distinct hslot

/-- The value of a key, by places. -/
theorem lookup_eq_of_findIdx? (table : SlotTable κ ν) (key : κ) :
    table.lookup key =
      ((table.slots.findIdx? (holdsKey key)).bind fun index => table.slots[index]?.join).map
        Prod.snd :=
  find_eq_of_findIdx? table.slots key

end Operations

end SlotTable

end Praktor.Math
