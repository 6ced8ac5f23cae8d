/-
# Custody along a history

Events acquire, use and release items.  A program that keeps track of what it holds never
uses or releases anything else.  Then each item is released once or still held at the end,
and it is used only before its release.
-/

import Mathlib.Data.List.Induction

namespace Praktor.Math

universe u v

/-- What an event does with an item. -/
inductive Role (ι : Type v)
  | acquire (item : ι)
  | use (item : ι)
  | release (item : ι)
  | idle
  deriving DecidableEq

section Custody

variable {ε : Type u} {ι : Type v} (role : ε → Role ι)

/-- After a history these items are held. -/
inductive Custody : List ε → List ι → Prop
  | nil : Custody [] []
  | idle {history : List ε} {held : List ι} {event : ε} (hbefore : Custody history held)
      (hrole : role event = .idle) : Custody (history ++ [event]) held
  | acquire {history : List ε} {held later : List ι} {event : ε} {item : ι}
      (hbefore : Custody history held) (hrole : role event = .acquire item)
      (hnew : ∀ earlier ∈ history, role earlier ≠ .acquire item)
      (hlater : later.Perm (item :: held)) : Custody (history ++ [event]) later
  | use {history : List ε} {held : List ι} {event : ε} {item : ι} (hbefore : Custody history held)
      (hrole : role event = .use item) (hheld : item ∈ held) : Custody (history ++ [event]) held
  | release {history : List ε} {held later : List ι} {event : ε} {item : ι}
      (hbefore : Custody history held) (hrole : role event = .release item)
      (hheld : held.Perm (item :: later)) : Custody (history ++ [event]) later

variable {role} {history : List ε} {held : List ι}

/-- The order of the items does not matter. -/
theorem Custody.perm (hcustody : Custody role history held) {other : List ι}
    (hperm : held.Perm other) : Custody role history other := by
  induction hcustody generalizing other with
  | nil =>
      obtain rfl := List.nil_perm.mp hperm
      exact .nil
  | idle _ hrole ih => exact .idle (ih hperm) hrole
  | acquire hbefore hrole hnew hlater _ =>
      exact .acquire hbefore hrole hnew (hperm.symm.trans hlater)
  | use _ hrole hheld ih => exact .use (ih hperm) hrole (hperm.mem_iff.mp hheld)
  | release hbefore hrole hheld _ =>
      exact .release hbefore hrole (hheld.trans (hperm.cons _))

/-- What is held was acquired. -/
theorem Custody.acquired (hcustody : Custody role history held) {item : ι} (hitem : item ∈ held) :
    ∃ event ∈ history, role event = .acquire item := by
  have hmono {before : List ε} {last : ε} (hfound : ∃ event ∈ before, role event = .acquire item) :
      ∃ event ∈ before ++ [last], role event = .acquire item := by
    obtain ⟨event, hevent, hrole⟩ := hfound
    exact ⟨event, List.mem_append_left _ hevent, hrole⟩
  induction hcustody with
  | nil => simp at hitem
  | idle _ _ ih => exact hmono (ih hitem)
  | @acquire before _ _ event other _ hrole _ hlater ih =>
      rcases List.mem_cons.mp (hlater.mem_iff.mp hitem) with rfl | hearlier
      · exact ⟨event, by simp, hrole⟩
      · exact hmono (ih hearlier)
  | use _ _ _ ih => exact hmono (ih hitem)
  | release _ _ hheld ih => exact hmono (ih (hheld.mem_iff.mpr (List.mem_cons_of_mem _ hitem)))

/-- Before the last event. -/
theorem Custody.last {event : ε} (hcustody : Custody role (history ++ [event]) held) :
    ∃ earlier, Custody role history earlier ∧ ∀ item, role event = .use item → item ∈ earlier := by
  generalize hwhole : history ++ [event] = whole at hcustody
  have hsame {before : List ε} {final : ε} (heq : history ++ [event] = before ++ [final]) :
      before = history ∧ final = event := by
    obtain ⟨hbefore, hfinal⟩ := List.append_inj' heq rfl
    exact ⟨hbefore.symm, (List.singleton_inj.mp hfinal).symm⟩
  cases hcustody with
  | nil => simp at hwhole
  | idle hbefore hrole =>
      obtain ⟨rfl, rfl⟩ := hsame hwhole
      exact ⟨_, hbefore, fun item huse => by simp [hrole] at huse⟩
  | acquire hbefore hrole =>
      obtain ⟨rfl, rfl⟩ := hsame hwhole
      exact ⟨_, hbefore, fun item huse => by simp [hrole] at huse⟩
  | use hbefore hrole hheld =>
      obtain ⟨rfl, rfl⟩ := hsame hwhole
      refine ⟨_, hbefore, fun item huse => ?_⟩
      obtain rfl := Role.use.inj (hrole.symm.trans huse)
      exact hheld
  | release hbefore hrole =>
      obtain ⟨rfl, rfl⟩ := hsame hwhole
      exact ⟨_, hbefore, fun item huse => by simp [hrole] at huse⟩

/-- Every beginning of a history is one, too. -/
theorem Custody.split {before after : List ε} {event : ε}
    (hcustody : Custody role (before ++ event :: after) held) :
    ∃ earlier, Custody role before earlier ∧ ∀ item, role event = .use item → item ∈ earlier := by
  induction after using List.reverseRecOn generalizing held with
  | nil => exact hcustody.last
  | append_singleton after final ih =>
      rw [← List.cons_append, ← List.append_assoc] at hcustody
      obtain ⟨shorter, hshorter, -⟩ := hcustody.last
      exact ih hshorter

section Counting

variable [DecidableEq ι]

/-- How often an item is acquired. -/
def acquisitions (role : ε → Role ι) (history : List ε) (item : ι) : Nat :=
  history.countP fun event => role event = .acquire item

/-- How often an item is released. -/
def releases (role : ε → Role ι) (history : List ε) (item : ι) : Nat :=
  history.countP fun event => role event = .release item

/-- Items are released or still held. -/
theorem Custody.count (hcustody : Custody role history held) (item : ι) :
    acquisitions role history item = releases role history item + held.count item := by
  unfold acquisitions releases
  induction hcustody with
  | nil => rfl
  | idle _ hrole ih => simp [List.countP_append, hrole, ih]
  | @acquire _ _ _ _ other _ hrole _ hlater ih =>
      rw [List.countP_append, List.countP_append, hlater.count_eq, List.count_cons, ih]
      by_cases hsame : other = item
      · simp [hrole, hsame]
        omega
      · simp [hrole, hsame]
  | use _ hrole _ ih => simp [List.countP_append, hrole, ih]
  | @release _ _ _ _ other _ hrole hheld ih =>
      rw [hheld.count_eq, List.count_cons] at ih
      rw [List.countP_append, List.countP_append, ih]
      by_cases hsame : other = item
      · simp [hrole, hsame]
        omega
      · simp [hrole, hsame]

/-- An item is acquired once at most. -/
theorem Custody.acquisitions_le (hcustody : Custody role history held) (item : ι) :
    acquisitions role history item ≤ 1 := by
  unfold acquisitions
  induction hcustody with
  | nil => exact Nat.zero_le _
  | idle _ hrole ih => simpa [List.countP_append, hrole] using ih
  | @acquire before _ _ event other _ hrole hnew _ ih =>
      rw [List.countP_append]
      by_cases hsame : other = item
      · subst hsame
        have hzero : before.countP (fun event => role event = .acquire other) = 0 :=
          List.countP_eq_zero.mpr fun earlier hearlier => by simpa using hnew earlier hearlier
        simp [hzero, hrole]
      · simpa [hrole, hsame] using ih
  | use _ hrole _ ih => simpa [List.countP_append, hrole] using ih
  | release _ hrole _ ih => simpa [List.countP_append, hrole] using ih

/-- An item that was acquired is released once or still held once. -/
theorem Custody.released_or_held (hcustody : Custody role history held) {event : ε} {item : ι}
    (hevent : event ∈ history) (hrole : role event = .acquire item) :
    releases role history item + held.count item = 1 := by
  have hcount := hcustody.count item
  have hle := hcustody.acquisitions_le item
  have hpositive : 0 < acquisitions role history item :=
    List.countP_pos_iff.mpr ⟨event, hevent, by simp [hrole]⟩
  omega

/-- An item is used after it was acquired and before it is released. -/
theorem Custody.used {before after : List ε} {event : ε}
    (hcustody : Custody role (before ++ event :: after) held) {item : ι}
    (hrole : role event = .use item) :
    (∃ earlier ∈ before, role earlier = .acquire item) ∧ releases role before item = 0 := by
  obtain ⟨earlier, hearlier, hheld⟩ := hcustody.split
  have hmem := hheld item hrole
  have hcount := hearlier.count item
  have hle := hearlier.acquisitions_le item
  have hpositive := List.count_pos_iff.mpr hmem
  exact ⟨hearlier.acquired hmem, by omega⟩

end Counting

end Custody

end Praktor.Math
