/-
# Texts in an arena

An arena is one list in which many terminated texts stand at fixed places.  A text is
written item by item, closed with the terminator, and read up to the first terminator.
Writing at one place leaves a text alone that stands outside the range written.
-/

import Mathlib.Data.List.Basic

namespace Praktor.Math.Arena

universe u

variable {α : Type u}

/-- Overwrite the items from `offset` on. -/
def write (arena : List α) (offset : Nat) (items : List α) : List α :=
  arena.take offset ++ items ++ arena.drop (offset + items.length)

/-- The items from `offset` up to the first terminator. -/
def text [DecidableEq α] (terminator : α) (arena : List α) (offset : Nat) : List α :=
  (arena.drop offset).takeWhile (· ≠ terminator)

/-- The `count` items from `offset` on. -/
def read (arena : List α) (offset count : Nat) : List α := (arena.drop offset).take count

/-- A terminated text stands at `offset`. -/
def Holds (terminator : α) (arena : List α) (offset : Nat) (items : List α) : Prop :=
  terminator ∉ items ∧ read arena offset (items.length + 1) = items ++ [terminator]

theorem length_write {arena items : List α} {offset : Nat}
    (hfits : offset + items.length ≤ arena.length) :
    (write arena offset items).length = arena.length := by
  simp only [write, List.length_append, List.length_take, List.length_drop]
  omega

/-- What is read where something was written. -/
theorem read_write_self {arena items : List α} {offset : Nat}
    (hfits : offset + items.length ≤ arena.length) :
    read (write arena offset items) offset items.length = items := by
  have hoffset : (arena.take offset).length = offset := by
    rw [List.length_take]
    omega
  rw [read, write, List.append_assoc, List.drop_left' hoffset, List.take_left]

/-- Items outside the range written are kept. -/
theorem getElem?_write_of_apart {arena items : List α} {offset index : Nat}
    (hfits : offset + items.length ≤ arena.length)
    (hapart : index < offset ∨ offset + items.length ≤ index) :
    (write arena offset items)[index]? = arena[index]? := by
  have hoffset : (arena.take offset).length = offset := by
    rw [List.length_take]
    omega
  rw [write, List.append_assoc]
  rcases hapart with hbefore | hafter
  · rw [List.getElem?_append_left (by omega), List.getElem?_take_of_lt hbefore]
  · rw [List.getElem?_append_right (by omega), List.getElem?_append_right (by omega),
      List.getElem?_drop, hoffset]
    congr 1
    omega

/-- What is read outside the range written. -/
theorem read_write_of_apart {arena items : List α} {offset other count : Nat}
    (hfits : offset + items.length ≤ arena.length)
    (hapart : other + count ≤ offset ∨ offset + items.length ≤ other) :
    read (write arena offset items) other count = read arena other count := by
  apply List.ext_getElem?
  intro index
  rw [read, read, List.getElem?_take, List.getElem?_take, List.getElem?_drop, List.getElem?_drop]
  split
  · rw [getElem?_write_of_apart hfits (by omega)]
  · rfl

/-- What stands up to the end of a write. -/
theorem take_write {arena items : List α} {offset : Nat} (hoffset : offset ≤ arena.length) :
    (write arena offset items).take (offset + items.length) = arena.take offset ++ items := by
  have hlength : (arena.take offset ++ items).length = offset + items.length := by
    rw [List.length_append, List.length_take]
    omega
  rw [write, ← hlength, List.take_left]

/-- What stands after a write. -/
theorem drop_write {arena items : List α} {offset place : Nat}
    (hfits : offset + items.length ≤ arena.length) (hplace : offset + items.length ≤ place) :
    (write arena offset items).drop place = arena.drop place := by
  apply List.ext_getElem?
  intro index
  rw [List.getElem?_drop, List.getElem?_drop, getElem?_write_of_apart hfits (.inr (by omega))]

/-- Writing on behind what was written. -/
theorem write_append {arena first second : List α} {offset : Nat}
    (hfits : offset + first.length + second.length ≤ arena.length) :
    write (write arena offset first) (offset + first.length) second =
      write arena offset (first ++ second) := by
  have hfirst : offset + first.length ≤ arena.length := by omega
  rw [write, take_write (by omega), drop_write hfirst (by omega), write, List.length_append,
    List.append_assoc (arena.take offset), Nat.add_assoc]

/-- Setting an item is writing it. -/
theorem set_eq_write {arena : List α} {offset : Nat} (hfits : offset < arena.length) (item : α) :
    arena.set offset item = write arena offset [item] := by
  rw [List.set_eq_take_append_cons_drop, if_pos hfits, write, List.append_assoc]
  rfl

theorem write_nil (arena : List α) (offset : Nat) : write arena offset [] = arena := by
  rw [write, List.append_nil, List.length_nil, Nat.add_zero, List.take_append_drop]

/-- Two arenas differ between `start` and `stop` only. -/
structure SameOutside (start stop : Nat) (before after : List α) : Prop where
  length_eq : after.length = before.length
  read_eq : ∀ offset count, offset + count ≤ start ∨ stop ≤ offset →
    read after offset count = read before offset count

theorem SameOutside.refl (start stop : Nat) (arena : List α) : SameOutside start stop arena arena :=
  ⟨rfl, fun _ _ _ => rfl⟩

theorem SameOutside.trans {start stop : Nat} {before between after : List α}
    (hfirst : SameOutside start stop before between)
    (hsecond : SameOutside start stop between after) : SameOutside start stop before after :=
  ⟨hsecond.length_eq.trans hfirst.length_eq, fun offset count hapart =>
    (hsecond.read_eq offset count hapart).trans (hfirst.read_eq offset count hapart)⟩

/-- A write within a range. -/
theorem sameOutside_write {start stop offset : Nat} {arena items : List α} (hstart : start ≤ offset)
    (hstop : offset + items.length ≤ stop) (hfits : stop ≤ arena.length) :
    SameOutside start stop arena (write arena offset items) :=
  ⟨length_write (by omega), fun _ _ hapart => read_write_of_apart (by omega) (by omega)⟩

/-- Reading on. -/
theorem read_add (arena : List α) (offset first second : Nat) :
    read arena offset (first + second) =
      read arena offset first ++ read arena (offset + first) second := by
  rw [read, read, read, List.take_add, List.drop_drop]

section Texts

variable {terminator : α} {arena items : List α} {offset : Nat}

/-- A text that was written and closed stands there. -/
theorem holds_write (hterminator : terminator ∉ items)
    (hfits : offset + items.length + 1 ≤ arena.length) :
    Holds terminator
      (write (write arena offset items) (offset + items.length) [terminator]) offset items := by
  have hlength : (write arena offset items).length = arena.length := length_write (by omega)
  have hclose : offset + items.length + [terminator].length ≤ (write arena offset items).length := by
    rw [hlength]
    exact hfits
  refine ⟨hterminator, ?_⟩
  rw [read_add, read_write_of_apart hclose (.inl (Nat.le_refl _)), read_write_self (by omega)]
  exact congrArg (items ++ ·) (read_write_self hclose)

/-- A text that was copied with its terminator stands there. -/
theorem holds_copy (hterminator : terminator ∉ items)
    (hfits : offset + items.length + 1 ≤ arena.length) :
    Holds terminator (write arena offset (items ++ [terminator])) offset items := by
  have hself := @read_write_self α arena (items ++ [terminator]) offset (by
    rw [List.length_append, List.length_singleton]
    omega)
  rw [List.length_append, List.length_singleton] at hself
  exact ⟨hterminator, hself⟩

/-- Writing and closing a text changes its own range only. -/
theorem sameOutside_text {start stop : Nat} (hstart : start ≤ offset)
    (hstop : offset + items.length + 1 ≤ stop) (hfits : stop ≤ arena.length) :
    SameOutside start stop arena
      (write (write arena offset items) (offset + items.length) [terminator]) := by
  have hfirst : SameOutside start stop arena (write arena offset items) :=
    sameOutside_write hstart (by omega) hfits
  refine hfirst.trans (sameOutside_write (by omega) hstop ?_)
  rw [hfirst.length_eq]
  exact hfits

/-- A text is kept by changes outside its range. -/
theorem Holds.of_sameOutside {start stop : Nat} {after : List α}
    (hholds : Holds terminator arena offset items) (hsame : SameOutside start stop arena after)
    (hapart : offset + (items.length + 1) ≤ start ∨ stop ≤ offset) :
    Holds terminator after offset items :=
  ⟨hholds.1, (hsame.read_eq offset _ hapart).trans hholds.2⟩

/-- A text that stands there is what is read up to the terminator. -/
theorem Holds.text_eq [DecidableEq α] (hholds : Holds terminator arena offset items) :
    text terminator arena offset = items := by
  obtain ⟨hterminator, hread⟩ := hholds
  rw [read] at hread
  rw [text, ← List.take_append_drop (items.length + 1) (arena.drop offset), hread,
    List.append_assoc, List.takeWhile_append_of_pos]
  · simp
  · intro item hitem
    simpa using fun heq : item = terminator => hterminator (heq ▸ hitem)

theorem Holds.read_eq (hholds : Holds terminator arena offset items) :
    read arena offset items.length = items := by
  have hinitial := congrArg (List.take items.length) hholds.2
  rwa [read, List.take_take, Nat.min_eq_left (Nat.le_succ _), List.take_left] at hinitial

end Texts

end Praktor.Math.Arena
