/-
# Packed texts

The texts of several owners stand in an arena one behind the other, each with its
terminator, from the first place on.  A text is appended behind the last one, and one is
removed by moving what follows it.  The places of the texts follow from their order.
-/

import Praktor.Math.Arena

namespace Praktor.Math.Arena

universe u v

variable {α : Type u} {κ : Type v} (terminator : α)

/-- The texts of some owners with their terminators. -/
def packed (entries : List (κ × List α)) : List α :=
  entries.flatMap fun entry => entry.2 ++ [terminator]

@[simp]
theorem packed_nil : packed terminator ([] : List (κ × List α)) = [] := rfl

theorem packed_cons (entry : κ × List α) (rest : List (κ × List α)) :
    packed terminator (entry :: rest) = entry.2 ++ [terminator] ++ packed terminator rest :=
  List.flatMap_cons

theorem packed_append (first second : List (κ × List α)) :
    packed terminator (first ++ second) = packed terminator first ++ packed terminator second :=
  List.flatMap_append

theorem length_packed_cons (entry : κ × List α) (rest : List (κ × List α)) :
    (packed terminator (entry :: rest)).length =
      entry.2.length + 1 + (packed terminator rest).length := by
  rw [packed_cons, List.length_append, List.length_append, List.length_singleton]

theorem length_packed_append (first second : List (κ × List α)) :
    (packed terminator (first ++ second)).length =
      (packed terminator first).length + (packed terminator second).length := by
  rw [packed_append, List.length_append]

variable {terminator} {arena : List α} {before after entries : List (κ × List α)} {owner : κ}
  {text : List α}

theorem packed_split (before after : List (κ × List α)) (owner : κ) (text : List α) :
    packed terminator (before ++ (owner, text) :: after) =
      packed terminator before ++ ((text ++ [terminator]) ++ packed terminator after) := by
  rw [packed_append, packed_cons]

/-- A packed text is where the texts before it end. -/
theorem read_packed (hpacked : packed terminator (before ++ (owner, text) :: after) <+: arena) :
    read arena (packed terminator before).length (text.length + 1) = text ++ [terminator] := by
  obtain ⟨rest, rfl⟩ := hpacked
  have hlength : (text ++ [terminator]).length = text.length + 1 := by
    rw [List.length_append, List.length_singleton]
  rw [packed_split, read, List.append_assoc, List.drop_left, List.append_assoc, ← hlength,
    List.take_left]

/-- Moving what follows a text removes it. -/
theorem packed_remove (hpacked : packed terminator (before ++ (owner, text) :: after) <+: arena) :
    packed terminator (before ++ after) <+:
      write arena (packed terminator before).length
        (read arena ((packed terminator before).length + (text.length + 1))
          (packed terminator after).length) := by
  obtain ⟨rest, rfl⟩ := hpacked
  have hlength : (text ++ [terminator]).length = text.length + 1 := by
    rw [List.length_append, List.length_singleton]
  have hmoved : read (packed terminator (before ++ (owner, text) :: after) ++ rest)
      ((packed terminator before).length + (text.length + 1)) (packed terminator after).length =
      packed terminator after := by
    rw [packed_split, read, List.append_assoc, ← List.drop_drop, List.drop_left, List.append_assoc,
      ← hlength, List.drop_left, List.take_left]
  have hkept : (packed terminator (before ++ (owner, text) :: after) ++ rest).take
      (packed terminator before).length = packed terminator before := by
    rw [packed_split, List.append_assoc, List.take_left]
  rw [hmoved, write, hkept, packed_append]
  exact ⟨_, rfl⟩

/-- Writing a text with its terminator behind the last one. -/
theorem packed_concat (owner : κ) (hpacked : packed terminator entries <+: arena)
    (hfits : (packed terminator entries).length + text.length + 1 ≤ arena.length) :
    packed terminator (entries ++ [(owner, text)]) <+:
      write (write arena (packed terminator entries).length text)
        ((packed terminator entries).length + text.length) [terminator] := by
  have hfirst := @take_write α arena text (packed terminator entries).length (by omega)
  have hlength := @length_write α arena text (packed terminator entries).length (by omega)
  have hsecond := @take_write α (write arena (packed terminator entries).length text) [terminator]
    ((packed terminator entries).length + text.length) (by omega)
  rw [hfirst, ← List.prefix_iff_eq_take.mp hpacked] at hsecond
  have hwhole : packed terminator (entries ++ [(owner, text)]) =
      packed terminator entries ++ text ++ [terminator] := by
    rw [packed_split, packed_nil, List.append_nil, List.append_assoc]
  rw [hwhole, ← hsecond]
  exact List.take_prefix _ _

/-! ## Places -/

/-- Where the text of each owner stands: the texts follow each other from a place on. -/
def Laid (place : κ → Nat × Nat) : Nat → List (κ × List α) → Prop
  | _, [] => True
  | start, (owner, text) :: rest =>
      place owner = (start, text.length) ∧ Laid place (start + (text.length + 1)) rest

section Places

variable {place place' : κ → Nat × Nat} {start : Nat} {first second : List (κ × List α)}

theorem laid_append (terminator : α) : Laid place start (first ++ second) ↔
    Laid place start first ∧ Laid place (start + (packed terminator first).length) second := by
  induction first generalizing start with
  | nil => simp [Laid]
  | cons entry rest ih =>
      obtain ⟨owner, text⟩ := entry
      rw [List.cons_append, Laid, Laid, ih, length_packed_cons, and_assoc, Nat.add_assoc]

/-- Only the places of the owners count. -/
theorem Laid.congr (hlaid : Laid place start first)
    (hsame : ∀ entry ∈ first, place' entry.1 = place entry.1) : Laid place' start first := by
  induction first generalizing start with
  | nil => trivial
  | cons entry rest ih =>
      obtain ⟨owner, text⟩ := entry
      obtain ⟨hhead, hrest⟩ := hlaid
      exact ⟨(hsame _ List.mem_cons_self).trans hhead,
        ih hrest fun other hother => hsame other (List.mem_cons_of_mem _ hother)⟩

/-- A text lies within the range of all of them. -/
theorem Laid.bounds (terminator : α) (hlaid : Laid place start first) {entry : κ × List α} (hentry : entry ∈ first) :
    start ≤ (place entry.1).1 ∧ (place entry.1).2 = entry.2.length ∧
      (place entry.1).1 + (entry.2.length + 1) ≤ start + (packed terminator first).length := by
  induction first generalizing start with
  | nil => cases hentry
  | cons head rest ih =>
      obtain ⟨owner, text⟩ := head
      obtain ⟨hhead, hrest⟩ := hlaid
      rw [length_packed_cons]
      dsimp only
      rcases List.mem_cons.mp hentry with rfl | hlater
      · rw [hhead]
        exact ⟨Nat.le_refl _, rfl, by dsimp only; omega⟩
      · obtain ⟨hstart, hsize, hstop⟩ := ih hrest hlater
        exact ⟨by omega, hsize, by omega⟩

/-- Texts that all move to the front by the same distance. -/
theorem Laid.shift {distance : Nat} (hlaid : Laid place (start + distance) first)
    (hmoved : ∀ entry ∈ first,
      place' entry.1 = ((place entry.1).1 - distance, (place entry.1).2)) :
    Laid place' start first := by
  induction first generalizing start with
  | nil => trivial
  | cons entry rest ih =>
      obtain ⟨owner, text⟩ := entry
      obtain ⟨hhead, hrest⟩ := hlaid
      refine ⟨?_, ih ?_ fun other hother => hmoved other (List.mem_cons_of_mem _ hother)⟩
      · rw [hmoved _ List.mem_cons_self, hhead, Nat.add_sub_cancel]
      · rwa [Nat.add_right_comm] at hrest

end Places

end Praktor.Math.Arena
