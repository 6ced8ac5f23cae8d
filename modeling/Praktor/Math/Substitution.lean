/-
# Replacing a marker

Each occurrence of a marker in a text is replaced once, from the left on, and what comes from
a replacement is not looked at again.  The relation says which text results; the function
computes it in one pass.
-/

import Mathlib.Data.List.Infix

namespace Praktor.Math

universe u

variable {α : Type u}

/-- Every occurrence of the marker, from the left on, is replaced once. -/
inductive Substituted (marker replacement : List α) : List α → List α → Prop
  | last {text : List α} (hfree : ¬ marker <:+: text) :
      Substituted marker replacement text text
  | next {before text rendered : List α} (hfirst : ¬ marker <:+: (before ++ marker).dropLast)
      (hrest : Substituted marker replacement text rendered) :
      Substituted marker replacement (before ++ (marker ++ text))
        (before ++ (replacement ++ rendered))

/-- A text keeps its replacements behind an item at which no marker begins. -/
theorem Substituted.cons {marker replacement text rendered : List α} {item : α}
    (hsubstituted : Substituted marker replacement text rendered)
    (hbegins : ¬ marker <+: item :: text) :
    Substituted marker replacement (item :: text) (item :: rendered) := by
  cases hsubstituted with
  | last hfree =>
      refine .last fun hinfix => ?_
      rcases List.infix_cons_iff.mp hinfix with hbegin | hlater
      · exact hbegins hbegin
      · exact hfree hlater
  | @next before text rendered hfirst hrest =>
      have hfirst' : ¬ marker <:+: (item :: before ++ marker).dropLast := by
        by_cases hempty : before ++ marker = []
        · obtain ⟨rfl, rfl⟩ := List.append_eq_nil_iff.mp hempty
          exact absurd (List.nil_prefix) hbegins
        rw [List.cons_append, List.dropLast_cons_of_ne_nil hempty]
        intro hinfix
        rcases List.infix_cons_iff.mp hinfix with hbegin | hlater
        · apply hbegins
          have hdrop : (before ++ marker).dropLast <+: before ++ (marker ++ text) := by
            rw [← List.append_assoc]
            exact (List.dropLast_prefix _).trans (List.prefix_append _ _)
          exact hbegin.trans ((List.prefix_cons_inj _).mpr hdrop)
        · exact hfirst hlater
      exact .next hfirst' hrest

/-- The pass over the text; `skip` items belong to a marker. -/
def substituteFrom [DecidableEq α] (marker replacement : List α) : Nat → List α → List α
  | _, [] => []
  | skip + 1, _ :: rest => substituteFrom marker replacement skip rest
  | 0, item :: rest =>
      if (item :: rest).take marker.length = marker then
        replacement ++ substituteFrom marker replacement (marker.length - 1) rest
      else item :: substituteFrom marker replacement 0 rest

/-- The text with every occurrence of the marker replaced. -/
def substituted [DecidableEq α] (marker replacement text : List α) : List α :=
  substituteFrom marker replacement 0 text

section Pass

variable [DecidableEq α] {marker replacement text : List α}

theorem substituteFrom_eq_drop (skip : Nat) (text : List α) :
    substituteFrom marker replacement skip text = substituted marker replacement (text.drop skip) := by
  induction text generalizing skip with
  | nil => cases skip <;> rfl
  | cons item rest ih =>
      cases skip with
      | zero => rfl
      | succ skip => exact ih skip

theorem substituted_cons_of_not {item : α} {rest : List α} (hfree : ¬ marker <+: item :: rest) :
    substituted marker replacement (item :: rest) =
      item :: substituted marker replacement rest := by
  have htest : ¬ (item :: rest).take marker.length = marker := fun hsame =>
    hfree (List.prefix_iff_eq_take.mpr hsame.symm)
  rw [substituted, substituteFrom, if_neg htest]
  rfl

theorem substituted_marker (hmarker : marker ≠ []) (rest : List α) :
    substituted marker replacement (marker ++ rest) =
      replacement ++ substituted marker replacement rest := by
  obtain ⟨first, tail, rfl⟩ := List.exists_cons_of_ne_nil hmarker
  rw [substituted, List.cons_append, substituteFrom, ← List.cons_append, List.take_left, if_pos rfl,
    substituteFrom_eq_drop]
  simp

omit [DecidableEq α] in
/-- What is not in the first part of a text is not at the beginning of the text. -/
theorem not_prefix_of_not_infix {item : α} {before rest : List α}
    (hfirst : ¬ marker <:+: (item :: before ++ marker).dropLast) :
    ¬ marker <+: item :: before ++ (marker ++ rest) := by
  intro hbegins
  apply hfirst
  apply List.IsPrefix.isInfix
  have hwhole : (item :: before ++ marker).dropLast <+: item :: before ++ (marker ++ rest) := by
    rw [← List.append_assoc]
    exact (List.dropLast_prefix _).trans (List.prefix_append _ _)
  apply List.prefix_of_prefix_length_le hbegins hwhole
  simp

theorem substituted_before (hmarker : marker ≠ []) {before : List α}
    (hfirst : ¬ marker <:+: (before ++ marker).dropLast) (rest : List α) :
    substituted marker replacement (before ++ (marker ++ rest)) =
      before ++ (replacement ++ substituted marker replacement rest) := by
  induction before with
  | nil => exact substituted_marker hmarker rest
  | cons item before ih =>
      have hlater : ¬ marker <:+: (before ++ marker).dropLast := by
        intro hinfix
        apply hfirst
        rw [List.cons_append, List.dropLast_cons_of_ne_nil (by simp [hmarker])]
        exact List.infix_cons hinfix
      have hnot : ¬ marker <+: item :: (before ++ (marker ++ rest)) := not_prefix_of_not_infix hfirst
      rw [List.cons_append, substituted_cons_of_not hnot, ih hlater]
      rfl

theorem substituted_free (hfree : ¬ marker <:+: text) :
    substituted marker replacement text = text := by
  induction text with
  | nil => rfl
  | cons item rest ih =>
      rw [substituted_cons_of_not fun hbegins => hfree hbegins.isInfix,
        ih fun hinfix => hfree (List.infix_cons hinfix)]

/-- The pass replaces every occurrence. -/
theorem substituted_spec (hmarker : marker ≠ []) (text : List α) :
    Substituted marker replacement text (substituted marker replacement text) := by
  induction hlength : text.length using Nat.strong_induction_on generalizing text with
  | _ length ih =>
    subst hlength
    cases text with
    | nil => exact .last fun hinfix => hmarker (List.eq_nil_of_infix_nil hinfix)
    | cons item rest =>
        by_cases hbegins : marker <+: item :: rest
        · obtain ⟨tail, htail⟩ := hbegins
          have hshort : tail.length < (item :: rest).length := by
            rw [← htail, List.length_append]
            have hpos := List.length_pos_of_ne_nil hmarker
            omega
          rw [← htail, substituted_marker hmarker]
          have hfirst : ¬ marker <:+: (([] : List α) ++ marker).dropLast := by
            intro hinfix
            have hlength := hinfix.length_le
            have hpos := List.length_pos_of_ne_nil hmarker
            rw [List.nil_append, List.length_dropLast] at hlength
            omega
          exact .next hfirst (ih _ hshort tail rfl)
        · rw [substituted_cons_of_not hbegins]
          exact (ih rest.length (Nat.lt_succ_self _) rest rfl).cons hbegins

/-- The pass computes what the relation says. -/
theorem substituted_iff (hmarker : marker ≠ []) {rendered : List α} :
    Substituted marker replacement text rendered ↔
      substituted marker replacement text = rendered := by
  constructor
  · intro hsubstituted
    induction hsubstituted with
    | last hfree => exact substituted_free hfree
    | next hfirst _ ih => rw [substituted_before hmarker hfirst, ih]
  · rintro rfl
    exact substituted_spec hmarker text

end Pass

end Praktor.Math
