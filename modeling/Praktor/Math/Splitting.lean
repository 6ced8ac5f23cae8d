/-
# Splitting a list at a pattern

A pattern occurs in a list as a run of consecutive items.  The first occurrence splits the
list in two; splitting what follows again gives the lines of a text whose separator is the
pattern.  A separator at the end of the text adds no line.
-/

import Mathlib.Data.List.Infix

namespace Praktor.Math

universe u

variable {α : Type u} [DecidableEq α]

/-- What stands before and after the first occurrence of a pattern. -/
def splitFirst (pattern : List α) : List α → Option (List α × List α)
  | [] => if pattern = [] then some ([], []) else none
  | item :: rest =>
      if pattern <+: item :: rest then some ([], (item :: rest).drop pattern.length)
      else (splitFirst pattern rest).map fun parts => (item :: parts.1, parts.2)

variable {pattern text before after : List α}

theorem splitFirst_eq_none_iff :
    splitFirst pattern text = none ↔ ∀ before after, text ≠ before ++ (pattern ++ after) := by
  induction text with
  | nil =>
      rw [splitFirst]
      by_cases hempty : pattern = []
      · rw [if_pos hempty]
        exact ⟨nofun, fun hnot => absurd (by simp [hempty]) (hnot [] [])⟩
      · rw [if_neg hempty]
        refine ⟨fun _ before after hsame => hempty ?_, fun _ => rfl⟩
        exact (List.append_eq_nil_iff.mp (List.append_eq_nil_iff.mp hsame.symm).2).1
  | cons item rest ih =>
      rw [splitFirst]
      by_cases hinitial : pattern <+: item :: rest
      · rw [if_pos hinitial]
        obtain ⟨after, hafter⟩ := hinitial
        exact ⟨nofun, fun hnot => absurd hafter.symm (hnot [] after)⟩
      · rw [if_neg hinitial, Option.map_eq_none_iff, ih]
        refine ⟨fun hnot before after hsame => ?_, fun hnot before after hsame => ?_⟩
        · cases before with
          | nil => exact hinitial ⟨after, hsame.symm⟩
          | cons first before => exact hnot before after (List.cons.inj hsame).2
        · exact hnot (item :: before) after (by rw [hsame, List.cons_append])

/-- The first occurrence: there is one here and none begins earlier. -/
theorem splitFirst_eq_some_iff : splitFirst pattern text = some (before, after) ↔
    text = before ++ (pattern ++ after) ∧
      ∀ shorter later, text = shorter ++ (pattern ++ later) → before.length ≤ shorter.length := by
  induction text generalizing before with
  | nil =>
      rw [splitFirst]
      constructor
      · intro hsplit
        split_ifs at hsplit with hempty
        obtain ⟨rfl, rfl⟩ := Prod.mk.inj (Option.some.inj hsplit)
        exact ⟨by simp [hempty], fun _ _ _ => Nat.zero_le _⟩
      · rintro ⟨hsame, -⟩
        obtain ⟨rfl, hrest⟩ := List.append_eq_nil_iff.mp hsame.symm
        obtain ⟨rfl, rfl⟩ := List.append_eq_nil_iff.mp hrest
        rfl
  | cons item rest ih =>
      rw [splitFirst]
      by_cases hinitial : pattern <+: item :: rest
      · rw [if_pos hinitial]
        obtain ⟨later, hlater⟩ := hinitial
        have hdrop : (item :: rest).drop pattern.length = later := by
          rw [← hlater, List.drop_left]
        rw [hdrop]
        constructor
        · intro hsplit
          obtain ⟨rfl, rfl⟩ := Prod.mk.inj (Option.some.inj hsplit)
          exact ⟨hlater.symm, fun _ _ _ => Nat.zero_le _⟩
        · rintro ⟨hsame, hfirst⟩
          obtain rfl := List.eq_nil_of_length_eq_zero
            (Nat.le_zero.mp (hfirst [] later hlater.symm))
          rw [List.nil_append, ← hlater] at hsame
          rw [List.append_cancel_left hsame]
      · rw [if_neg hinitial, Option.map_eq_some_iff]
        constructor
        · rintro ⟨⟨inner, rest'⟩, hsplit, hparts⟩
          obtain ⟨rfl, rfl⟩ := Prod.mk.inj hparts
          obtain ⟨hsame, hfirst⟩ := ih.mp hsplit
          refine ⟨by rw [hsame, List.cons_append], fun shorter later hother => ?_⟩
          cases shorter with
          | nil => exact absurd ⟨later, hother.symm⟩ hinitial
          | cons first shorter =>
              exact Nat.succ_le_succ (hfirst shorter later (List.cons.inj hother).2)
        · rintro ⟨hsame, hfirst⟩
          cases before with
          | nil => exact absurd ⟨after, hsame.symm⟩ hinitial
          | cons first before =>
              obtain ⟨rfl, hrest⟩ := List.cons.inj hsame
              refine ⟨(before, after), ih.mpr ⟨hrest, fun shorter later hother => ?_⟩, rfl⟩
              exact Nat.le_of_succ_le_succ
                (hfirst (item :: shorter) later (by rw [hother, List.cons_append]))

theorem splitFirst_length (hsplit : splitFirst pattern text = some (before, after)) :
    text.length = before.length + (pattern.length + after.length) := by
  rw [(splitFirst_eq_some_iff.mp hsplit).1, List.length_append, List.length_append]

/-- The lines of a text. -/
def splitLines (separator text : List α) : List (List α) :=
  if text = [] then []
  else
    match splitFirst separator text with
    | none => [text]
    | some (line, rest) =>
        line :: if rest.length < text.length then splitLines separator rest else []
termination_by text.length

@[simp]
theorem splitLines_nil (separator : List α) : splitLines separator [] = [] := by
  rw [splitLines, if_pos rfl]

theorem splitLines_last (htext : text ≠ []) (hsplit : splitFirst pattern text = none) :
    splitLines pattern text = [text] := by
  rw [splitLines, if_neg htext, hsplit]

theorem splitLines_cons (hpattern : pattern ≠ [])
    (hsplit : splitFirst pattern text = some (before, after)) :
    splitLines pattern text = before :: splitLines pattern after := by
  have hlength := splitFirst_length hsplit
  have hpositive := List.length_pos_iff.mpr hpattern
  have htext : text ≠ [] := by
    rintro rfl
    simp at hlength
    omega
  rw [splitLines, if_neg htext, hsplit]
  dsimp only
  rw [if_pos (by omega)]

/-- The items of a line are items of the text. -/
theorem subset_of_mem_splitLines (hpattern : pattern ≠ []) {line : List α}
    (hline : line ∈ splitLines pattern text) : line ⊆ text := by
  induction hsize : text.length using Nat.strongRecOn generalizing text with
  | ind size ih =>
      by_cases htext : text = []
      · rw [htext, splitLines_nil] at hline
        cases hline
      cases hsplit : splitFirst pattern text with
      | none =>
          rw [splitLines_last htext hsplit, List.mem_singleton] at hline
          rw [hline]
          exact fun _ hitem => hitem
      | some parts =>
          obtain ⟨before, after⟩ := parts
          have hlength := splitFirst_length hsplit
          have hpositive := List.length_pos_iff.mpr hpattern
          have hsame := (splitFirst_eq_some_iff.mp hsplit).1
          rw [splitLines_cons hpattern hsplit, List.mem_cons] at hline
          rcases hline with rfl | hlater
          · rw [hsame]
            exact List.subset_append_left _ _
          · rw [hsame]
            exact List.Subset.trans (ih after.length (by omega) hlater rfl)
              (List.Subset.trans (List.subset_append_right _ _) (List.subset_append_right _ _))

/-! ## Separators of one item -/

theorem takeWhile_separator {separator : α} (htext : separator ∈ text) :
    text = text.takeWhile (· ≠ separator) ++
      ([separator] ++ text.drop ((text.takeWhile (· ≠ separator)).length + 1)) := by
  induction text with
  | nil => cases htext
  | cons item rest ih =>
      by_cases hitem : item = separator
      · simp [hitem]
      · have hrest : separator ∈ rest := (List.mem_cons.mp htext).resolve_left (Ne.symm hitem)
        have hkept : decide (item ≠ separator) = true := decide_eq_true hitem
        rw [List.takeWhile_cons, if_pos hkept, List.length_cons, List.drop_succ_cons,
          List.cons_append, ← ih hrest]

theorem takeWhile_eq_self {separator : α} (htext : separator ∉ text) :
    text.takeWhile (· ≠ separator) = text := by
  induction text with
  | nil => rfl
  | cons item rest ih =>
      obtain ⟨hitem, hrest⟩ := not_or.mp (mt List.mem_cons.mpr htext)
      have hkept : decide (item ≠ separator) = true := decide_eq_true (Ne.symm hitem)
      rw [List.takeWhile_cons, if_pos hkept, ih hrest]

/-- The first line of a text and the text after it. -/
theorem splitLines_singleton (separator : α) (htext : text ≠ []) :
    splitLines [separator] text = text.takeWhile (· ≠ separator) ::
      splitLines [separator] (text.drop ((text.takeWhile (· ≠ separator)).length + 1)) := by
  by_cases hmember : separator ∈ text
  · apply splitLines_cons (List.cons_ne_nil _ _)
    refine splitFirst_eq_some_iff.mpr ⟨takeWhile_separator hmember, fun shorter later hother => ?_⟩
    by_contra hlonger
    have hplace : (text.takeWhile (· ≠ separator))[shorter.length]? = some separator := by
      have hwhole : text[shorter.length]? = some separator := by
        rw [hother, List.getElem?_append_right (Nat.le_refl _), Nat.sub_self]
        rfl
      rw [takeWhile_separator hmember, List.getElem?_append_left (by omega)] at hwhole
      exact hwhole
    have hkept := List.all_eq_true.mp
      (@List.all_takeWhile _ (fun item => decide (item ≠ separator)) text) separator
      (List.mem_of_getElem? hplace)
    exact of_decide_eq_true hkept rfl
  · have hsplit : splitFirst [separator] text = none := by
      refine splitFirst_eq_none_iff.mpr fun before after hsame => hmember ?_
      rw [hsame]
      simp
    rw [splitLines_last htext hsplit, takeWhile_eq_self hmember,
      List.drop_eq_nil_of_le (Nat.le_succ _), splitLines_nil]

/-! ## Cutting a text as it comes -/

/-- A text is its ended lines and a last line that has not ended. -/
structure Cut (separator : α) (text : List α) (lines : List (List α)) (last : List α) : Prop where
  text : text = (lines.flatMap fun line => line ++ [separator]) ++ last
  lines : ∀ line ∈ lines, separator ∉ line
  last : separator ∉ last

namespace Cut

variable {separator item : α} {lines : List (List α)} {last : List α}

omit [DecidableEq α] in
theorem nil (separator : α) : Cut separator [] [] [] :=
  ⟨rfl, by simp, by simp⟩

omit [DecidableEq α] in
/-- An item that is no separator goes to the last line. -/
theorem push (hcut : Cut separator text lines last) (hitem : item ≠ separator) :
    Cut separator (text ++ [item]) lines (last ++ [item]) := by
  refine ⟨by rw [hcut.text, List.append_assoc], hcut.lines, fun hmem => ?_⟩
  rcases List.mem_append.mp hmem with hmem | hmem
  · exact hcut.last hmem
  · exact hitem (List.mem_singleton.mp hmem).symm

omit [DecidableEq α] in
/-- A separator ends the last line. -/
theorem ended (hcut : Cut separator text lines last) :
    Cut separator (text ++ [separator]) (lines ++ [last]) [] := by
  refine ⟨?_, fun line hline => ?_, List.not_mem_nil⟩
  · rw [hcut.text, List.flatMap_append, List.append_nil, List.append_assoc]
    simp
  · rcases List.mem_append.mp hline with hline | hline
    · exact hcut.lines line hline
    · exact List.mem_singleton.mp hline ▸ hcut.last

/-- The lines of a text that is cut. -/
theorem splitLines (hcut : Cut separator text lines last) :
    splitLines [separator] text = lines ++ if last = [] then [] else [last] := by
  obtain ⟨rfl, hlines, hlast⟩ := hcut
  induction lines with
  | nil =>
      by_cases hempty : last = []
      · simp [hempty]
      · have hsplit : splitFirst [separator] last = none := by
          refine splitFirst_eq_none_iff.mpr fun before after hsame => hlast ?_
          rw [hsame]
          simp
        rw [if_neg hempty]
        exact splitLines_last hempty hsplit
  | cons line rest ih =>
      have hline : separator ∉ line := hlines line List.mem_cons_self
      have hrest := ih fun later hlater => hlines later (List.mem_cons_of_mem _ hlater)
      rw [List.flatMap_cons, List.append_assoc, List.append_assoc, List.singleton_append]
      generalize ((rest.flatMap fun line => line ++ [separator]) ++ last) = text at hrest ⊢
      have hkept : (line ++ separator :: text).takeWhile (· ≠ separator) = line := by
        rw [List.takeWhile_append_of_pos]
        · simp
        · intro item hitem
          exact decide_eq_true fun hsame => hline (hsame ▸ hitem)
      have hdropped : (line ++ separator :: text).drop (line.length + 1) = text := by
        rw [List.append_cons]
        exact List.drop_left' (by simp)
      rw [splitLines_singleton separator (by simp), hkept, hdropped, hrest, List.cons_append]

end Cut

end Praktor.Math
