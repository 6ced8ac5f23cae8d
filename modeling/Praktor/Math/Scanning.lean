/-
# Scanning by positions

The loop `while (p < stop && test(cells[p])) ++p` over a list of cells.  A read outside of
the list is a fault, which the loop reports instead of a position.  Between two positions
inside the list the loop takes the longest run of cells that pass the test, and what the
cells beyond its last read hold makes no difference.
-/

import Mathlib.Data.List.Basic

namespace Praktor.Math

universe u

variable {α : Type u} {test : α → Bool}

/-- The first position from `position` on, at most `stop`, whose cell fails the test. -/
def scanWhile (test : α → Bool) (cells : List α) (stop position : Nat) : Option Nat :=
  if position < stop then
    match cells[position]? with
    | none => none
    | some cell => if test cell then scanWhile test cells stop (position + 1) else some position
  else some position
termination_by stop - position

/-- A scan does not go back. -/
theorem le_of_scanWhile {cells : List α} {stop position last : Nat}
    (hscan : scanWhile test cells stop position = some last) : position ≤ last := by
  fun_induction scanWhile test cells stop position with
  | case1 => cases hscan
  | case2 position _ _ _ _ ih => exact Nat.le_trans (Nat.le_succ position) (ih hscan)
  | case3 => exact Nat.le_of_eq (Option.some.inj hscan)
  | case4 => exact Nat.le_of_eq (Option.some.inj hscan)

section Segments

variable (test) (front segment back : List α)

/-- One step of a scan, at the first cell after `front`. -/
theorem scanWhile_step (cell : α) {stop : Nat} (hinside : front.length < stop) :
    scanWhile test (front ++ cell :: back) stop front.length =
      if test cell then scanWhile test ((front ++ [cell]) ++ back) stop (front ++ [cell]).length
      else some front.length := by
  have hcell : (front ++ cell :: back)[front.length]? = some cell := by
    rw [List.getElem?_append_right (Nat.le_refl _), Nat.sub_self]
    rfl
  have hcells : (front ++ [cell]) ++ back = front ++ cell :: back := List.append_assoc _ _ _
  rw [scanWhile, if_pos hinside, hcell, hcells, List.length_append]
  rfl

/-- A scan of a segment takes its longest beginning that passes the test. -/
theorem scanWhile_segment :
    scanWhile test (front ++ (segment ++ back)) (front.length + segment.length) front.length =
      some (front.length + (segment.takeWhile test).length) := by
  induction segment generalizing front with
  | nil =>
      rw [List.length_nil, Nat.add_zero, scanWhile, if_neg (Nat.lt_irrefl _)]
      rfl
  | cons cell rest ih =>
      have hinside : front.length < front.length + (cell :: rest).length :=
        Nat.lt_add_of_pos_right (Nat.succ_pos _)
      have hlength : front.length + (cell :: rest).length =
          (front ++ [cell]).length + rest.length := by
        simp only [List.length_append, List.length_cons, List.length_nil]
        omega
      rw [List.cons_append, scanWhile_step _ _ _ _ hinside, hlength, ih]
      by_cases hpasses : test cell = true
      · rw [if_pos hpasses, List.takeWhile_cons_of_pos hpasses]
        simp only [List.length_append, List.length_cons, List.length_nil, Option.some.injEq]
        omega
      · rw [if_neg hpasses, List.takeWhile_cons_of_neg hpasses]
        rfl

/-- A scan that stops inside its segment reads nothing beyond the cell it stops at. -/
theorem scanWhile_stops {cell : α} (hrun : ∀ other ∈ segment, test other = true)
    (hstop : test cell = false) {stop : Nat} (hinside : front.length + segment.length < stop) :
    scanWhile test (front ++ (segment ++ cell :: back)) stop front.length =
      some (front.length + segment.length) := by
  induction segment generalizing front with
  | nil =>
      rw [List.nil_append, scanWhile_step _ _ _ _ hinside, hstop]
      rfl
  | cons other rest ih =>
      have hpasses := hrun other List.mem_cons_self
      have hlength : front.length + (other :: rest).length =
          (front ++ [other]).length + rest.length := by
        simp only [List.length_append, List.length_cons, List.length_nil]
        omega
      have hstart : front.length < stop := Nat.lt_of_le_of_lt (Nat.le_add_right _ _) hinside
      rw [hlength] at hinside ⊢
      rw [List.cons_append, scanWhile_step _ _ _ _ hstart, if_pos hpasses]
      exact ih _ (fun next hmem => hrun next (List.mem_cons_of_mem _ hmem)) hinside

/-- A scan from the first cell takes a run that a cell ends, or what of it is before `stop`. -/
theorem scanWhile_run {cell : α} (hrun : ∀ other ∈ segment, test other = true)
    (hstop : test cell = false) (stop : Nat) :
    scanWhile test (segment ++ cell :: back) stop 0 = some (min segment.length stop) := by
  by_cases hinside : segment.length < stop
  · have hshort : ([] : List α).length + segment.length < stop := by simpa
    have hscan := scanWhile_stops test [] segment back hrun hstop hshort
    rw [Nat.min_eq_left (Nat.le_of_lt hinside)]
    simpa using hscan
  · have hle : stop ≤ segment.length := Nat.le_of_not_lt hinside
    have hpasses : ∀ other ∈ segment.take stop, test other = true :=
      fun other hmem => hrun other (List.mem_of_mem_take hmem)
    have hall : (segment.take stop ++ []).takeWhile test = segment.take stop ++ [] :=
      List.takeWhile_append_of_pos hpasses
    rw [List.append_nil] at hall
    have hcells : segment.take stop ++ (segment.drop stop ++ cell :: back) =
        segment ++ cell :: back := by
      rw [← List.append_assoc, List.take_append_drop]
    have hscan := scanWhile_segment test [] (segment.take stop) (segment.drop stop ++ cell :: back)
    rw [hall, hcells, List.length_take, Nat.min_eq_left hle] at hscan
    rw [Nat.min_eq_right hle]
    simpa using hscan

/-- A scan up to the last cell. -/
theorem scanWhile_drop (cells : List α) {position : Nat} (hinside : position ≤ cells.length) :
    scanWhile test cells cells.length position =
      some (position + ((cells.drop position).takeWhile test).length) := by
  have hscan := scanWhile_segment test (cells.take position) (cells.drop position) []
  have hlength : (cells.take position).length = position := by
    rw [List.length_take, Nat.min_eq_left hinside]
  have hstop : position + (cells.drop position).length = cells.length := by
    rw [List.length_drop]
    omega
  rwa [List.append_nil, List.take_append_drop, hlength, hstop] at hscan

end Segments

end Praktor.Math
