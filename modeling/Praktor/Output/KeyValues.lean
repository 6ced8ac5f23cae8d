/-
# The pairs of a text

What the scanner is for: the lines of a text that have the delimiter give pairs, and the
last pair of a key decides its value.  Here the scan, the sorted insertion and the pair
capacity are compared with that reading.
-/

import Mathlib.Data.List.Induction
import Praktor.Math.Splitting
import Praktor.Output.Scan

namespace Praktor.Output

open Praktor.Data Praktor.Math

/-- The pair of a line that has the delimiter. -/
def pairOf (delimiter line : Bytes) : Option OutputPair :=
  (splitFirst delimiter line).map fun parts => ⟨trim parts.1, trim parts.2⟩

/-- The pairs of a text, in the order of its lines. -/
def pairsOf (delimiter separator text : Bytes) : List OutputPair :=
  (splitLines separator text).filterMap (pairOf delimiter)

/-- The value of the first pair with a key. -/
def valueOf (key : Bytes) (pairs : List OutputPair) : Option Bytes :=
  (pairs.find? fun pair => pair.key = key).map OutputPair.value

/-- The keys increase strictly. -/
def Increasing (pairs : List OutputPair) : Prop :=
  pairs.Pairwise fun first second => first.key < second.key

/-! ## Scanning -/

section Scanning

variable {input search separator delimiter before after : Bytes} {offset : Nat}

theorem occurs_iff {place : Nat} (hplace : place + search.length ≤ input.length) :
    (input.drop place).take search.length = search ↔
      ∃ before after, input = before ++ (search ++ after) ∧ before.length = place := by
  constructor
  · intro hsame
    refine ⟨input.take place, input.drop (place + search.length), ?_, by simp; omega⟩
    calc input = input.take place ++ input.drop place := (List.take_append_drop _ _).symm
      _ = input.take place ++ ((input.drop place).take search.length ++
            (input.drop place).drop search.length) := by
          rw [List.take_append_drop search.length]
      _ = _ := by rw [hsame, List.drop_drop]
  · rintro ⟨before, after, rfl, rfl⟩
    rw [List.drop_left, List.take_left]

theorem find_split (hsplit : splitFirst search input = some (before, after)) :
    find input search = before.length := by
  obtain ⟨hsame, hfirst⟩ := splitFirst_eq_some_iff.mp hsplit
  have hlength := splitFirst_length hsplit
  unfold find
  rw [if_neg (by omega)]
  split_ifs with hempty
  · obtain rfl := List.eq_nil_of_length_eq_zero hempty
    exact (Nat.le_zero.mp (hfirst [] input rfl)).symm
  · have hfound : ((List.range (input.length - search.length + 1)).find? fun place =>
        (input.drop place).take search.length = search) = some before.length := by
      rw [List.find?_range_eq_some]
      refine ⟨?_, List.mem_range.mpr (by omega), fun place hplace => ?_⟩
      · exact decide_eq_true ((occurs_iff (by omega)).mpr ⟨before, after, hsame, rfl⟩)
      · rw [Bool.not_eq_true', decide_eq_false_iff_not]
        intro hearlier
        obtain ⟨shorter, later, hother, hplaced⟩ := (occurs_iff (by omega)).mp hearlier
        have := hfirst shorter later hother
        omega
    rw [hfound, Option.getD_some]

theorem find_none (hsplit : splitFirst search input = none) : find input search = input.length := by
  have habsent := splitFirst_eq_none_iff.mp hsplit
  unfold find
  split_ifs with hlong hempty
  · rfl
  · obtain rfl := List.eq_nil_of_length_eq_zero hempty
    exact absurd rfl (habsent [] input)
  · have hfound : ((List.range (input.length - search.length + 1)).find? fun place =>
        (input.drop place).take search.length = search) = none := by
      rw [List.find?_eq_none]
      intro place hplace hoccurs
      have hbound := List.mem_range.mp hplace
      obtain ⟨shorter, later, hother, -⟩ :=
        (occurs_iff (by omega)).mp (of_decide_eq_true hoccurs)
      exact habsent shorter later hother
    rw [hfound, Option.getD_none]

/-- The line at an offset is the first line of what follows. -/
theorem splitLines_drop (hseparator : separator ≠ []) (hoffset : offset < input.length) :
    splitLines separator (input.drop offset) = lineAt input separator offset ::
      splitLines separator (input.drop (lineEnd input separator offset)) := by
  have htext : input.drop offset ≠ [] := by
    rw [Ne, List.drop_eq_nil_iff]
    omega
  have hrest : (input.drop offset).length = input.length - offset := List.length_drop
  unfold lineAt lineEnd
  cases hsplit : splitFirst separator (input.drop offset) with
  | none =>
      have hend : input.drop (offset + (input.drop offset).length + 0) = [] := by
        rw [List.drop_eq_nil_iff]
        omega
      rw [find_none hsplit, if_neg (Nat.lt_irrefl _), hend, List.take_length, splitLines_nil,
        splitLines_last htext hsplit]
  | some parts =>
      obtain ⟨line, rest⟩ := parts
      have hlength := splitFirst_length hsplit
      have hpositive := List.length_pos_iff.mpr hseparator
      have hsame := (splitFirst_eq_some_iff.mp hsplit).1
      have hline : (input.drop offset).take line.length = line := by rw [hsame, List.take_left]
      have hlater : input.drop (offset + line.length + separator.length) = rest := by
        rw [← List.drop_drop, ← List.drop_drop, hsame, List.drop_left, List.drop_left]
      rw [find_split hsplit, if_pos (by omega), hline, hlater, splitLines_cons hseparator hsplit]

/-- The branch of the scanner on a line. -/
theorem pairOf_eq (delimiter line : Bytes) : pairOf delimiter line =
    if delimiter.length = 0 || find line delimiter < line.length then
      some ⟨trim (line.take (find line delimiter)),
        trim (line.drop (find line delimiter + delimiter.length))⟩
    else none := by
  unfold pairOf
  cases hsplit : splitFirst delimiter line with
  | none =>
      have hdelimiter : delimiter.length ≠ 0 := by
        intro hempty
        obtain rfl := List.eq_nil_of_length_eq_zero hempty
        exact absurd rfl (splitFirst_eq_none_iff.mp hsplit [] line)
      rw [find_none hsplit, if_neg (by simp [hdelimiter])]
      rfl
  | some parts =>
      obtain ⟨before, after⟩ := parts
      have hlength := splitFirst_length hsplit
      have hsame := (splitFirst_eq_some_iff.mp hsplit).1
      have hbefore : line.take before.length = before := by rw [hsame, List.take_left]
      have hafter : line.drop (before.length + delimiter.length) = after := by
        rw [← List.drop_drop, hsame, List.drop_left, List.drop_left]
      have hbranch : (decide (delimiter.length = 0) || decide (before.length < line.length)) = true := by
        rw [Bool.or_eq_true, decide_eq_true_iff, decide_eq_true_iff]
        omega
      rw [find_split hsplit, hbefore, hafter, if_pos hbranch]
      rfl

/-- What one call of the scanner finds. -/
theorem pairsOf_next (hseparator : separator ≠ []) (offset : Nat) :
    pairsOf delimiter separator (input.drop offset) =
      match nextPair input delimiter separator hseparator offset with
      | none => []
      | some (pair, next) => pair :: pairsOf delimiter separator (input.drop next) := by
  induction hrest : input.length - offset using Nat.strongRecOn generalizing offset with
  | ind rest ih =>
      rw [nextPair]
      by_cases hoffset : offset < input.length
      · have hgreater := lineEnd_gt hseparator hoffset
        have hlater := ih _ (by omega) (lineEnd input separator offset) rfl
        have hline := pairOf_eq delimiter (lineAt input separator offset)
        rw [dif_pos hoffset, pairsOf, splitLines_drop hseparator hoffset, List.filterMap_cons, hline]
        dsimp only
        split_ifs
        · rfl
        · exact hlater
      · have hempty : input.drop offset = [] := List.drop_eq_nil_iff.mpr (by omega)
        rw [dif_neg hoffset, pairsOf, hempty, splitLines_nil]
        rfl

theorem collectPairs_eq (hseparator : separator ≠ []) (capacity offset : Nat)
    (pairs : List OutputPair) :
    collectPairs input delimiter separator hseparator capacity offset pairs =
      (pairsOf delimiter separator (input.drop offset)).foldlM (insertPair capacity) pairs := by
  induction hrest : input.length - offset using Nat.strongRecOn generalizing offset pairs with
  | ind rest ih =>
      rw [collectPairs, pairsOf_next hseparator]
      split
      · next hpair =>
          rw [hpair]
          rfl
      · next pair next hpair =>
          have hgreater := nextPair_gt hpair
          rw [hpair, List.foldlM_cons]
          cases insertPair capacity pairs pair with
          | none => rfl
          | some inserted => exact ih _ (by omega) next inserted rfl

end Scanning

/-! ## Sorted members -/

theorem compareSpans_cons (first second : UInt8) (left right : Bytes) :
    compareSpans (first :: left) (second :: right) =
      if first = second then compareSpans left right else if first < second then .lt else .gt := by
  unfold compareSpans
  rw [memcmp]
  by_cases hsame : first = second
  · rw [if_pos hsame, if_pos hsame]
    cases memcmp left right with
    | eq =>
        dsimp only
        rw [List.length_cons, List.length_cons, Nat.compare_eq_ite_lt, Nat.compare_eq_ite_lt]
        simp
    | lt => rfl
    | gt => rfl
  · rw [if_neg hsame, if_neg hsame]
    by_cases hless : first < second
    · rw [if_pos hless]
    · rw [if_neg hless]

@[simp]
theorem compareSpans_eq_iff {left right : Bytes} : compareSpans left right = .eq ↔ left = right := by
  induction left generalizing right with
  | nil => cases right <;> simp [compareSpans, memcmp]
  | cons first left ih =>
      cases right with
      | nil => simp [compareSpans, memcmp]
      | cons second right =>
          rw [compareSpans_cons, List.cons.injEq]
          by_cases hsame : first = second
          · rw [if_pos hsame, ih]
            exact ⟨fun htail => ⟨hsame, htail⟩, And.right⟩
          · rw [if_neg hsame]
            split_ifs
            · exact ⟨nofun, fun hboth => absurd hboth.1 hsame⟩
            · exact ⟨nofun, fun hboth => absurd hboth.1 hsame⟩

@[simp]
theorem compareSpans_lt_iff {left right : Bytes} : compareSpans left right = .lt ↔ left < right := by
  induction left generalizing right with
  | nil => cases right <;> simp [compareSpans, memcmp, Nat.compare_eq_lt]
  | cons first left ih =>
      cases right with
      | nil => simp [compareSpans, memcmp, Nat.compare_eq_lt]
      | cons second right =>
          rw [compareSpans_cons, List.cons_lt_cons_iff]
          by_cases hsame : first = second
          · rw [if_pos hsame, ih]
            simp [hsame]
          · rw [if_neg hsame]
            split_ifs with hless
            · simp [hless]
            · simp [hless, hsame]

/-- The members after a pair was replaced or inserted, whatever the capacity. -/
def putPair (pairs : List OutputPair) (pair : OutputPair) : List OutputPair :=
  pairs.takeWhile (before pair) ++ pair ::
    match pairs.dropWhile (before pair) with
    | found :: rest => if found.key = pair.key then rest else found :: rest
    | [] => []

theorem putPair_nil (pair : OutputPair) : putPair [] pair = [pair] := rfl

theorem putPair_cons (first pair : OutputPair) (pairs : List OutputPair) :
    putPair (first :: pairs) pair =
      if first.key < pair.key then first :: putPair pairs pair
      else if first.key = pair.key then pair :: pairs
      else pair :: first :: pairs := by
  unfold putPair
  by_cases hless : first.key < pair.key
  · have hbefore : before pair first = true := decide_eq_true (compareSpans_lt_iff.mpr hless)
    rw [List.takeWhile_cons_of_pos hbefore, List.dropWhile_cons_of_pos hbefore, if_pos hless]
    rfl
  · have hbefore : ¬ before pair first = true := by simpa [before] using hless
    rw [List.takeWhile_cons_of_neg hbefore, List.dropWhile_cons_of_neg hbefore, if_neg hless]
    dsimp only
    split_ifs
    · rfl
    · rfl

theorem length_putPair (pairs : List OutputPair) (pair : OutputPair) :
    pairs.length ≤ (putPair pairs pair).length := by
  induction pairs with
  | nil => exact Nat.zero_le _
  | cons first pairs ih =>
      rw [putPair_cons]
      split_ifs
      · exact Nat.succ_le_succ ih
      · exact Nat.le_refl _
      · exact Nat.le_succ _

theorem putPair_mem {pairs : List OutputPair} {pair other : OutputPair}
    (hother : other ∈ putPair pairs pair) : other = pair ∨ other ∈ pairs := by
  induction pairs with
  | nil => exact .inl (List.mem_singleton.mp hother)
  | cons first pairs ih =>
      rw [putPair_cons] at hother
      grind

theorem Increasing.putPair {pairs : List OutputPair} (hpairs : Increasing pairs)
    (pair : OutputPair) : Increasing (putPair pairs pair) := by
  induction pairs with
  | nil => exact List.pairwise_singleton _ _
  | cons first pairs ih =>
      obtain ⟨hfirst, hrest⟩ := List.pairwise_cons.mp hpairs
      rw [putPair_cons]
      split_ifs with hless hsame
      · refine List.pairwise_cons.mpr ⟨fun other hother => ?_, ih hrest⟩
        rcases putPair_mem hother with rfl | hmember
        · exact hless
        · exact hfirst other hmember
      · refine List.pairwise_cons.mpr ⟨fun other hother => ?_, hrest⟩
        exact hsame ▸ hfirst other hother
      · have hgreater : pair.key < first.key := by
          rcases List.le_iff_lt_or_eq.mp (List.not_lt.mp hless) with hlt | heq
          · exact hlt
          · exact absurd heq.symm hsame
        refine List.pairwise_cons.mpr ⟨fun other hother => ?_, hpairs⟩
        rcases List.mem_cons.mp hother with rfl | hmember
        · exact hgreater
        · exact List.lt_trans hgreater (hfirst other hmember)

theorem valueOf_cons (key : Bytes) (first : OutputPair) (pairs : List OutputPair) :
    valueOf key (first :: pairs) = if first.key = key then some first.value else valueOf key pairs := by
  unfold valueOf
  rw [List.find?_cons]
  split_ifs with hkey
  · simp [hkey]
  · simp [hkey]

theorem valueOf_putPair (key : Bytes) (pairs : List OutputPair) (pair : OutputPair) :
    valueOf key (putPair pairs pair) = if pair.key = key then some pair.value else valueOf key pairs := by
  induction pairs with
  | nil => rw [putPair_nil, valueOf_cons]
  | cons first pairs ih =>
      rw [putPair_cons, valueOf_cons key first pairs]
      split_ifs with hless hsame <;> grind [valueOf_cons]

/-- The members of a text: its pairs put one after the other. -/
def membersOf (delimiter separator text : Bytes) : List OutputPair :=
  (pairsOf delimiter separator text).foldl putPair []

theorem increasing_foldl (news : List OutputPair) {pairs : List OutputPair}
    (hpairs : Increasing pairs) : Increasing (news.foldl putPair pairs) := by
  induction news generalizing pairs with
  | nil => exact hpairs
  | cons pair news ih => exact ih (hpairs.putPair pair)

/-- The last pair of a key decides. -/
theorem valueOf_foldl (key : Bytes) (news pairs : List OutputPair) :
    valueOf key (news.foldl putPair pairs) = (valueOf key news.reverse).or (valueOf key pairs) := by
  induction news using List.reverseRecOn with
  | nil => rfl
  | append_singleton news pair ih =>
      rw [List.foldl_append, List.foldl_cons, List.foldl_nil, valueOf_putPair, ih,
        List.reverse_append, List.reverse_singleton, List.singleton_append, valueOf_cons]
      split_ifs
      · rfl
      · rfl

theorem length_foldl (news pairs : List OutputPair) :
    pairs.length ≤ (news.foldl putPair pairs).length := by
  induction news generalizing pairs with
  | nil => exact Nat.le_refl _
  | cons pair news ih => exact Nat.le_trans (length_putPair pairs pair) (ih _)

/-- The capacity only matters where a key is new. -/
theorem insertPair_eq {capacity : Nat} {pairs : List OutputPair} (hcapacity : pairs.length ≤ capacity)
    (pair : OutputPair) : insertPair capacity pairs pair =
      if (putPair pairs pair).length ≤ capacity then some (putPair pairs pair) else none := by
  have htotal : (pairs.takeWhile (before pair)).length + (pairs.dropWhile (before pair)).length =
      pairs.length := by rw [← List.length_append, List.takeWhile_append_dropWhile]
  unfold insertPair
  dsimp only
  cases hrest : pairs.dropWhile (before pair) with
  | nil =>
      have hput : putPair pairs pair = pairs.takeWhile (before pair) ++ [pair] := by
        rw [putPair, hrest]
      rw [hrest, List.length_nil] at htotal
      rw [hput]
      by_cases hfull : pairs.length = capacity
      · rw [if_pos hfull, if_neg (by simp; omega)]
      · rw [if_neg hfull, if_pos (by simp; omega)]
  | cons found rest =>
      rw [hrest, List.length_cons] at htotal
      dsimp only
      by_cases hsame : found.key = pair.key
      · have hput : putPair pairs pair = pairs.takeWhile (before pair) ++ pair :: rest := by
          rw [putPair, hrest]
          exact congrArg (fun tail => pairs.takeWhile (before pair) ++ pair :: tail) (if_pos hsame)
        rw [if_pos (compareSpans_eq_iff.mpr hsame), hput, if_pos (by simp; omega)]
      · have hput : putPair pairs pair =
            pairs.takeWhile (before pair) ++ pair :: found :: rest := by
          rw [putPair, hrest]
          exact congrArg (fun tail => pairs.takeWhile (before pair) ++ pair :: tail) (if_neg hsame)
        rw [if_neg (mt compareSpans_eq_iff.mp hsame), hput]
        by_cases hfull : pairs.length = capacity
        · rw [if_pos hfull, if_neg (by simp; omega)]
        · rw [if_neg hfull, if_pos (by simp; omega)]

theorem foldlM_insertPair {capacity : Nat} (news : List OutputPair) {pairs : List OutputPair}
    (hcapacity : pairs.length ≤ capacity) : news.foldlM (insertPair capacity) pairs =
      if (news.foldl putPair pairs).length ≤ capacity then some (news.foldl putPair pairs)
      else none := by
  induction news generalizing pairs with
  | nil => exact (if_pos hcapacity).symm
  | cons pair news ih =>
      rw [List.foldlM_cons, List.foldl_cons, insertPair_eq hcapacity]
      by_cases hfits : (putPair pairs pair).length ≤ capacity
      · rw [if_pos hfits]
        exact ih hfits
      · have hlonger := length_foldl news (putPair pairs pair)
        rw [if_neg hfits, if_neg (by omega)]
        rfl

/-- The loop finds the members of the text, or they do not fit. -/
theorem collectPairs_members {input delimiter separator : Bytes} (hseparator : separator ≠ [])
    (capacity : Nat) : collectPairs input delimiter separator hseparator capacity 0 [] =
      if (membersOf delimiter separator input).length ≤ capacity then
        some (membersOf delimiter separator input)
      else none := by
  rw [collectPairs_eq, List.drop_zero, foldlM_insertPair _ (Nat.zero_le capacity)]
  rfl

/-! ## The number of members -/

theorem pairOf_length {delimiter line : Bytes} {pair : OutputPair} (hdelimiter : delimiter ≠ [])
    (hpair : pairOf delimiter line = some pair) : line ≠ [] := by
  rintro rfl
  rw [pairOf, splitFirst, if_neg hdelimiter] at hpair
  cases hpair

/-- Every pair takes a byte of its own, and a separator stands between two lines. -/
theorem pairsOf_length {delimiter separator : Bytes} (hdelimiter : delimiter ≠ [])
    (hseparator : separator ≠ []) (text : Bytes) :
    2 * (pairsOf delimiter separator text).length ≤ text.length + 1 := by
  induction hsize : text.length using Nat.strongRecOn generalizing text with
  | ind size ih =>
      by_cases htext : text = []
      · subst htext
        rw [pairsOf, splitLines_nil]
        exact Nat.zero_le _
      have hpositive := List.length_pos_iff.mpr htext
      cases hsplit : splitFirst separator text with
      | none =>
          rw [pairsOf, splitLines_last htext hsplit]
          have hone := List.length_filterMap_le (pairOf delimiter) [text]
          rw [List.length_singleton] at hone
          omega
      | some parts =>
          obtain ⟨line, rest⟩ := parts
          have hlength := splitFirst_length hsplit
          have hseparated := List.length_pos_iff.mpr hseparator
          have hrest := ih rest.length (by omega) rest rfl
          rw [pairsOf] at hrest
          rw [pairsOf, splitLines_cons hseparator hsplit, List.filterMap_cons]
          split
          · omega
          · next pair hpair =>
              have hline := List.length_pos_iff.mpr (pairOf_length hdelimiter hpair)
              rw [List.length_cons]
              omega

theorem length_putPair_le (pairs : List OutputPair) (pair : OutputPair) :
    (putPair pairs pair).length ≤ pairs.length + 1 := by
  induction pairs with
  | nil => exact Nat.le_refl _
  | cons first pairs ih =>
      rw [putPair_cons]
      split_ifs
      · exact Nat.succ_le_succ ih
      · exact Nat.le_succ _
      · exact Nat.le_refl _

theorem length_foldl_le (news pairs : List OutputPair) :
    (news.foldl putPair pairs).length ≤ pairs.length + news.length := by
  induction news generalizing pairs with
  | nil => exact Nat.le_refl _
  | cons pair news ih =>
      have hone := length_putPair_le pairs pair
      have hrest := ih (putPair pairs pair)
      rw [List.foldl_cons, List.length_cons]
      omega

theorem mem_foldl {news pairs : List OutputPair} {other : OutputPair}
    (hother : other ∈ news.foldl putPair pairs) : other ∈ news ∨ other ∈ pairs := by
  induction news generalizing pairs with
  | nil => exact .inr hother
  | cons pair news ih =>
      rcases ih hother with hnew | hplaced
      · exact .inl (List.mem_cons_of_mem _ hnew)
      · rcases putPair_mem hplaced with rfl | hold
        · exact .inl List.mem_cons_self
        · exact .inr hold

theorem pairOf_empty_key {line : Bytes} {pair : OutputPair} (hpair : pairOf [] line = some pair) :
    pair.key = [] := by
  have hsplit : splitFirst [] line = some ([], line) :=
    splitFirst_eq_some_iff.mpr ⟨rfl, fun _ _ _ => Nat.zero_le _⟩
  rw [pairOf, hsplit] at hpair
  rw [← Option.some.inj hpair]
  rfl

/-- Half the bytes of the text and one more entry are enough, for an empty delimiter too. -/
theorem membersOf_length {separator : Bytes} (hseparator : separator ≠ []) (delimiter text : Bytes) :
    (membersOf delimiter separator text).length ≤ text.length / 2 + 1 := by
  by_cases hdelimiter : delimiter = []
  · subst hdelimiter
    have hincreasing : Increasing (membersOf [] separator text) :=
      increasing_foldl _ List.Pairwise.nil
    have hkeys : ∀ member ∈ membersOf [] separator text, member.key = [] := by
      intro member hmember
      rcases mem_foldl hmember with hpair | hnone
      · obtain ⟨line, -, hline⟩ := List.mem_filterMap.mp hpair
        exact pairOf_empty_key hline
      · cases hnone
    match hmembers : membersOf [] separator text with
    | [] => exact Nat.zero_le _
    | [member] => exact Nat.le_add_left _ _
    | first :: second :: rest =>
        rw [hmembers] at hincreasing hkeys
        have hless := (List.pairwise_cons.mp hincreasing).1 second List.mem_cons_self
        rw [hkeys first List.mem_cons_self,
          hkeys second (List.mem_cons_of_mem _ List.mem_cons_self)] at hless
        exact absurd hless (List.lt_irrefl _)
  · have hpairs := pairsOf_length hdelimiter hseparator text
    have hmembers := length_foldl_le (pairsOf delimiter separator text) []
    rw [List.length_nil] at hmembers
    unfold membersOf
    omega

end Praktor.Output
