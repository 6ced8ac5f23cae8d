/-
# Linear probing

A table of slots is searched from the home slot of a key on, cyclically, until a slot is
free or holds the key.  Nothing is ever removed.  If every key that is in the table is found
where it stands, and this survives an insertion at the slot the search ends at, then the
search decides membership for every history of insertions.

The home of a key is arbitrary: nothing depends on the hash function.
-/

import Mathlib.Data.List.Basic

namespace Praktor.Math.Probing

universe u

variable {κ : Type u} [DecidableEq κ]

/-- The slots in the order a search from `home` meets them. -/
def probes (length home count : Nat) : List Nat :=
  (List.range count).map fun offset => (home + offset) % length

/-- A search for `key` ends at a free slot or at the key. -/
def stops (slots : List (Option κ)) (key : κ) (index : Nat) : Bool :=
  slots[index]? = some none ∨ slots[index]? = some (some key)

/-- The slot at which the search ends. -/
def locate (slots : List (Option κ)) (home : Nat) (key : κ) : Option Nat :=
  (probes slots.length home slots.length).find? (stops slots key)

/-- Every key is found where it stands. -/
def Findable (home : κ → Nat) (slots : List (Option κ)) : Prop :=
  ∀ index key, slots[index]? = some (some key) → locate slots (home key) key = some index

theorem probes_succ (length home count : Nat) (hhome : home < length) :
    probes length home (count + 1) = home :: probes length ((home + 1) % length) count := by
  rw [probes, List.range_succ_eq_map, List.map_cons, List.map_map]
  congr 1
  · rw [Nat.add_zero, Nat.mod_eq_of_lt hhome]
  · apply List.map_congr_left
    intro offset _
    simp only [Function.comp_apply, Nat.mod_add_mod]
    congr 1
    omega

/-- A search over as many slots as there are meets every one of them. -/
theorem mem_probes {length home index : Nat} (hhome : home < length) (hindex : index < length) :
    index ∈ probes length home length := by
  rw [probes, List.mem_map]
  by_cases hle : home ≤ index
  · refine ⟨index - home, List.mem_range.mpr (by omega), ?_⟩
    rw [Nat.add_sub_of_le hle, Nat.mod_eq_of_lt hindex]
  · refine ⟨length - home + index, List.mem_range.mpr (by omega), ?_⟩
    have hwrap : home + (length - home + index) = index + length := by omega
    rw [hwrap, Nat.add_mod_right, Nat.mod_eq_of_lt hindex]

/-- A table with a free slot ends every search. -/
theorem exists_locate {slots : List (Option κ)} {home : Nat} {key : κ}
    (hhome : home < slots.length) (hfree : none ∈ slots) :
    ∃ index, locate slots home key = some index := by
  obtain ⟨free, hlt, hslot⟩ := List.mem_iff_getElem.mp hfree
  apply Option.isSome_iff_exists.mp
  rw [locate, List.find?_isSome]
  refine ⟨free, mem_probes hhome hlt, ?_⟩
  simp [stops, List.getElem?_eq_getElem hlt, hslot]

/-- Where a search ends there is the key, or nothing. -/
theorem slot_of_locate {slots : List (Option κ)} {home index : Nat} {key : κ}
    (hlocate : locate slots home key = some index) :
    slots[index]? = some none ∨ slots[index]? = some (some key) := by
  simpa [stops] using List.find?_some hlocate

/-- A search that ends at a free slot has shown that the key is absent. -/
theorem Findable.notMem {home : κ → Nat} {slots : List (Option κ)} (hfindable : Findable home slots)
    {index : Nat} {key : κ} (hlocate : locate slots (home key) key = some index)
    (hfree : slots[index]? = some none) : some key ∉ slots := by
  intro hmem
  obtain ⟨other, hother⟩ := List.mem_iff_getElem?.mp hmem
  have hfound := hfindable other key hother
  rw [hlocate, Option.some.injEq] at hfound
  rw [hfound, hother] at hfree
  cases hfree

/-- A table without keys. -/
theorem findable_blank (home : κ → Nat) (count : Nat) :
    Findable home (List.replicate count (none : Option κ)) := by
  intro index key hslot
  have hnone := List.eq_of_mem_replicate (List.mem_of_getElem? hslot)
  cases hnone

/-- A search is not disturbed by a table that stops it nowhere earlier. -/
theorem locate_congr {slots after : List (Option κ)} {home index : Nat} {key : κ}
    (hlength : after.length = slots.length) (hlocate : locate slots home key = some index)
    (hpass : ∀ other, stops slots key other = false → stops after key other = false)
    (hstop : stops after key index = true) : locate after home key = some index := by
  obtain ⟨_, before, rest, hsplit, hbefore⟩ := List.find?_eq_some_iff_append.mp hlocate
  rw [locate, hlength]
  apply List.find?_eq_some_iff_append.mpr
  refine ⟨hstop, before, rest, hsplit, fun other hother => ?_⟩
  have hpassed := hpass other (by simpa using hbefore other hother)
  simp [hpassed]

/-- Entering a key where its search ended keeps every key findable. -/
theorem Findable.insert {home : κ → Nat} {slots : List (Option κ)} (hfindable : Findable home slots)
    {index : Nat} {key : κ} (hlocate : locate slots (home key) key = some index)
    (hfree : slots[index]? = some none) : Findable home (slots.set index (some key)) := by
  obtain ⟨hindex, _⟩ := List.getElem?_eq_some_iff.mp hfree
  -- the slot was free, so no search passed it before
  have hpass (wanted : κ) : ∀ other, stops slots wanted other = false →
      stops (slots.set index (some key)) wanted other = false := by
    intro other hpassed
    have hne : index ≠ other := by
      rintro rfl
      simp [stops, hfree] at hpassed
    rw [stops, List.getElem?_set_ne hne]
    exact hpassed
  intro place wanted hslot
  by_cases hplace : index = place
  · subst hplace
    rw [List.getElem?_set_self hindex, Option.some.injEq, Option.some.injEq] at hslot
    subst hslot
    apply locate_congr (List.length_set ..) hlocate (hpass key)
    simp [stops, hindex]
  · rw [List.getElem?_set_ne hplace] at hslot
    apply locate_congr (List.length_set ..) (hfindable place wanted hslot) (hpass wanted)
    simp [stops, List.getElem?_set_ne hplace, hslot]

end Praktor.Math.Probing
