/-
# Optimistic transactions on a partial map

This is what a transaction is meant to be, without any table, log or capacity.  A
snapshot remembers the map it was begun from and the map it has built since, and
lists the keys it has touched.  It may be committed into a map that has moved on
meanwhile as long as none of its touched keys has; the commit then writes its net
effect and nothing else.

A group of snapshots commits like one snapshot when their touched keys are
disjoint, and then the order of the group does not matter.
-/

import Praktor.Math.Overlay

namespace Praktor.Math

universe u v

/-- A transaction as its owner sees it. -/
@[ext]
structure Snapshot (κ : Type u) (ν : Type v) where
  begun : κ → Option ν
  working : κ → Option ν
  touched : List κ
  nodup : touched.Nodup
  untouched : ∀ key, key ∉ touched → working key = begun key

namespace Snapshot

variable {κ : Type u} {ν : Type v}

/-- A transaction that has just begun on `map`. -/
def opened (map : κ → Option ν) : Snapshot κ ν where
  begun := map
  working := map
  touched := []
  nodup := List.nodup_nil
  untouched _ _ := rfl

/-- The net effect: each touched key with its working value. -/
def net (snapshot : Snapshot κ ν) : List (κ × Option ν) :=
  snapshot.touched.map fun key => (key, snapshot.working key)

/-- Some touched key no longer has the value it had at the beginning. -/
def Conflicts (snapshot : Snapshot κ ν) (map : κ → Option ν) : Prop :=
  ∃ key ∈ snapshot.touched, map key ≠ snapshot.begun key

/-- The members touch pairwise disjoint sets of keys. -/
def Separate (members : List (Snapshot κ ν)) : Prop :=
  members.Pairwise fun first second => List.Disjoint first.touched second.touched

/-- The net effect of a group. -/
def groupNet (members : List (Snapshot κ ν)) : List (κ × Option ν) := members.flatMap net

/-- A group conflicts with a map or within itself. -/
def GroupConflicts (members : List (Snapshot κ ν)) (map : κ → Option ν) : Prop :=
  (∃ member ∈ members, member.Conflicts map) ∨ ¬ Separate members

@[simp]
theorem touchedBy_net (snapshot : Snapshot κ ν) : touchedBy snapshot.net = snapshot.touched := by
  simp [touchedBy, net, Function.comp_def]

theorem mem_net {snapshot : Snapshot κ ν} {key : κ} {value : Option ν} :
    (key, value) ∈ snapshot.net ↔ key ∈ snapshot.touched ∧ value = snapshot.working key := by
  simp only [net, List.mem_map, Prod.mk.injEq]
  constructor
  · rintro ⟨other, hother, rfl, rfl⟩
    exact ⟨hother, rfl⟩
  · rintro ⟨htouched, rfl⟩
    exact ⟨key, htouched, rfl, rfl⟩

/-- Separate members touch each key of the group once. -/
theorem nodup_groupNet {members : List (Snapshot κ ν)} (hseparate : Separate members) :
    (touchedBy (groupNet members)).Nodup := by
  have hkeys : touchedBy (groupNet members) = members.flatMap touched := by
    simp only [groupNet, touchedBy, List.map_flatMap]
    congr 1
    funext member
    exact member.touchedBy_net
  rw [hkeys, List.nodup_flatMap]
  exact ⟨fun member _ => member.nodup, hseparate⟩

theorem groupNet_perm {first second : List (Snapshot κ ν)} (hperm : first.Perm second) :
    (groupNet first).Perm (groupNet second) := hperm.flatMap_right _

theorem separate_perm {first second : List (Snapshot κ ν)} (hperm : first.Perm second) :
    Separate first ↔ Separate second :=
  hperm.pairwise_iff fun hdisjoint => hdisjoint.symm

/-- Whether a group conflicts does not depend on its order. -/
theorem groupConflicts_perm {first second : List (Snapshot κ ν)} (hperm : first.Perm second)
    (map : κ → Option ν) : GroupConflicts first map ↔ GroupConflicts second map := by
  simp only [GroupConflicts, hperm.mem_iff, separate_perm hperm]

/-- A group of one is its member. -/
theorem groupConflicts_singleton (snapshot : Snapshot κ ν) (map : κ → Option ν) :
    GroupConflicts [snapshot] map ↔ snapshot.Conflicts map := by
  simp [GroupConflicts, Separate]

@[simp]
theorem groupNet_singleton (snapshot : Snapshot κ ν) : groupNet [snapshot] = snapshot.net := by
  simp [groupNet]

section Writing

variable [DecidableEq κ]

/-- The touched keys in order of their first touch. -/
def touch (touched : List κ) (key : κ) : List κ :=
  if key ∈ touched then touched else touched ++ [key]

theorem mem_touch {touched : List κ} {key other : κ} :
    other ∈ touch touched key ↔ other = key ∨ other ∈ touched := by
  rw [touch]
  split
  · rename_i hmem
    constructor
    · exact .inr
    · rintro (rfl | hother)
      · exact hmem
      · exact hother
  · simp [or_comm]

theorem nodup_touch {touched : List κ} (hnodup : touched.Nodup) (key : κ) :
    (touch touched key).Nodup := by
  rw [touch]
  split
  · exact hnodup
  · rename_i hfresh
    rw [List.nodup_append]
    refine ⟨hnodup, List.nodup_singleton _, fun first hfirst second hsecond hequal => hfresh ?_⟩
    rwa [← List.mem_singleton.mp hsecond, ← hequal]

/-- Give a key a new working value, or remove it. -/
def write (snapshot : Snapshot κ ν) (key : κ) (value : Option ν) : Snapshot κ ν where
  begun := snapshot.begun
  working := Function.update snapshot.working key value
  touched := touch snapshot.touched key
  nodup := nodup_touch snapshot.nodup key
  untouched other hother := by
    have hcases : other ≠ key ∧ other ∉ snapshot.touched := by
      simpa [mem_touch, not_or] using hother
    rw [Function.update_of_ne hcases.1]
    exact snapshot.untouched other hcases.2

/-- Write several keys, first one first. -/
def writeAll (snapshot : Snapshot κ ν) (writes : List (κ × Option ν)) : Snapshot κ ν :=
  writes.foldl (fun current write => current.write write.1 write.2) snapshot

/-- A write of an untouched key adds it to the net effect. -/
theorem net_write {snapshot : Snapshot κ ν} {key : κ} (hfresh : key ∉ snapshot.touched)
    (value : Option ν) : (snapshot.write key value).net = snapshot.net ++ [(key, value)] := by
  have hkept : ∀ other ∈ snapshot.touched,
      Function.update snapshot.working key value other = snapshot.working other := by
    intro other hother
    have hne : other ≠ key := fun hequal => hfresh (hequal ▸ hother)
    exact Function.update_of_ne hne ..
  simp only [net, write, touch, if_neg hfresh, List.map_append, List.map_cons, List.map_nil,
    Function.update_self]
  rw [List.map_congr_left fun other hother => by rw [hkept other hother]]

/-- Writing distinct keys in a new transaction has these writes as its net effect. -/
theorem net_writeAll_opened (map : κ → Option ν) {writes : List (κ × Option ν)}
    (hnodup : (touchedBy writes).Nodup) : ((opened map).writeAll writes).net = writes := by
  induction writes using List.reverseRecOn with
  | nil => rfl
  | append_singleton writes write ih =>
      rw [touchedBy, List.map_append, List.nodup_append] at hnodup
      obtain ⟨hbefore, _, happart⟩ := hnodup
      have hnet := ih hbefore
      rw [writeAll, List.foldl_append]
      show (((opened map).writeAll writes).write write.1 write.2).net = writes ++ [write]
      rw [net_write, hnet]
      rw [← touchedBy_net, hnet]
      exact fun hmem => happart _ hmem _ (by simp) rfl

/-- The overlay of a net effect: working values on touched keys, the rest as it was. -/
theorem overlay_net (snapshot : Snapshot κ ν) (map : κ → Option ν) (key : κ) :
    overlay map snapshot.net key =
      if key ∈ snapshot.touched then snapshot.working key else map key := by
  have hnodup : (touchedBy snapshot.net).Nodup := by
    rw [touchedBy_net]
    exact snapshot.nodup
  by_cases hkey : key ∈ snapshot.touched
  · rw [if_pos hkey]
    exact overlay_of_mem hnodup (mem_net.mpr ⟨hkey, rfl⟩)
  · rw [if_neg hkey]
    exact overlay_of_not_mem (by simpa using hkey)

/-- The working map is the one at the beginning with the net effect on top. -/
theorem overlay_begun_net (snapshot : Snapshot κ ν) :
    overlay snapshot.begun snapshot.net = snapshot.working := by
  funext key
  rw [overlay_net]
  split
  · rfl
  · rename_i huntouched
    exact (snapshot.untouched key huntouched).symm

@[simp]
theorem begun_writeAll (snapshot : Snapshot κ ν) (writes : List (κ × Option ν)) :
    (snapshot.writeAll writes).begun = snapshot.begun := by
  induction writes generalizing snapshot with
  | nil => rfl
  | cons write rest ih => exact ih (snapshot.write write.1 write.2)

end Writing

end Snapshot

end Praktor.Math
