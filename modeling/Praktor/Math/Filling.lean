/-
# Buffers filled from front to back

A buffer is filled through a cursor that only moves forward.  What was put before the cursor stays
where it is, and as long as the room is enough nothing is put past the end.
-/

import Praktor.Math.Arena

namespace Praktor.Math

universe u

variable {α : Type u}

/-- A buffer and the place where it is filled. -/
structure Filling (α : Type u) where
  buffer : List α
  cursor : Nat

namespace Filling

/-- These items stand at a place. -/
def Stands (buffer : List α) (place : Nat) (items : List α) : Prop :=
  Arena.read buffer place items.length = items

/-- Put items at the cursor, and tell where they are; past the end nothing is put. -/
def put (filling : Filling α) (items : List α) : Option (Nat × Filling α) :=
  if filling.cursor + items.length ≤ filling.buffer.length then
    some (filling.cursor, ⟨Arena.write filling.buffer filling.cursor items,
      filling.cursor + items.length⟩)
  else none

/-- What a buffer is like after more was put. -/
structure Extends (before after : Filling α) : Prop where
  length_eq : after.buffer.length = before.buffer.length
  cursor_le : before.cursor ≤ after.cursor
  kept : ∀ place items, place + items.length ≤ before.cursor →
    Stands before.buffer place items → Stands after.buffer place items

variable {first second third filling : Filling α} {items : List α}

theorem Extends.refl (filling : Filling α) : Extends filling filling :=
  ⟨rfl, Nat.le_refl _, fun _ _ _ hstands => hstands⟩

theorem Extends.trans (hfirst : Extends first second) (hsecond : Extends second third) :
    Extends first third where
  length_eq := hsecond.length_eq.trans hfirst.length_eq
  cursor_le := Nat.le_trans hfirst.cursor_le hsecond.cursor_le
  kept place items hplace hstands :=
    hsecond.kept place items (Nat.le_trans hplace hfirst.cursor_le)
      (hfirst.kept place items hplace hstands)

/-- Items stand somewhere before the cursor. -/
def Has (filling : Filling α) (place : Nat) (items : List α) : Prop :=
  place + items.length ≤ filling.cursor ∧ Stands filling.buffer place items

theorem Has.later {place : Nat} (hhas : Has first place items) (hextends : Extends first second) :
    Has second place items :=
  ⟨Nat.le_trans hhas.1 hextends.cursor_le, hextends.kept place items hhas.1 hhas.2⟩

/-- More was put, and this much of it. -/
structure Grown (before : Filling α) (bytes : Nat) (after : Filling α) : Prop where
  extension : Extends before after
  cursor : after.cursor = before.cursor + bytes

theorem Grown.refl (filling : Filling α) : Grown filling 0 filling := ⟨Extends.refl _, rfl⟩

theorem Grown.trans {first second third : Filling α} {bytes more : Nat}
    (hfirst : Grown first bytes second) (hsecond : Grown second more third) :
    Grown first (bytes + more) third :=
  ⟨hfirst.extension.trans hsecond.extension, by rw [hsecond.cursor, hfirst.cursor, Nat.add_assoc]⟩

/-- There is room for this many bytes. -/
def Room (filling : Filling α) (bytes : Nat) : Prop :=
  filling.cursor + bytes ≤ filling.buffer.length

theorem Room.after {before after : Filling α} {bytes more : Nat}
    (hroom : Room before (bytes + more)) (hgrown : Grown before bytes after) : Room after more := by
  rw [Room, hgrown.cursor, hgrown.extension.length_eq, Nat.add_assoc]
  exact hroom

theorem Room.front {filling : Filling α} {bytes more : Nat}
    (hroom : Room filling (bytes + more)) : Room filling bytes :=
  Nat.le_trans (Nat.add_le_add_left (Nat.le_add_right _ _) _) hroom

/-- Where there is room, items are put. -/
theorem put_eq (hroom : Room filling items.length) :
    ∃ next, filling.put items = some (filling.cursor, next) ∧
      Grown filling items.length next ∧ Has next filling.cursor items := by
  refine ⟨_, if_pos hroom, ⟨⟨Arena.length_write hroom, Nat.le_add_right _ _, ?_⟩, rfl⟩,
    Nat.le_refl _, Arena.read_write_self hroom⟩
  intro place others hplace hstands
  rw [Stands, Arena.read_write_of_apart hroom (.inl hplace)]
  exact hstands

end Filling

end Praktor.Math
