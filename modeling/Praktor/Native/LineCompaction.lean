/-
# Compacting the kept lines

The loop of `ParseLines` rewrites the buffer it reads.  It never writes past the place it
reads at, so what is still to be read are the original bytes, and what is written is the
join of the lines kept so far.
-/

import Praktor.Math.Splitting
import Praktor.Native.Leaves

namespace Praktor.Native

open Praktor.Data Praktor.Math

/-- The lines a filter keeps. -/
def keeps (search : Option (Bytes → RegexStatus)) (line : Bytes) : Bool :=
  match search with
  | none => true
  | some search => search line = .ok

/-- The kept lines of a text. -/
def keptLines (search : Option (Bytes → RegexStatus)) (text : Bytes) : List Bytes :=
  (splitLines [10] text).filter (keeps search)

/-- Lines joined with one LF, without the empty ones in front. -/
def joinLines (lines : List Bytes) : Bytes := [10].intercalate (lines.dropWhile (· = []))

theorem joinLines_singleton (line : Bytes) : joinLines [line] = line := by
  unfold joinLines
  by_cases hline : line = []
  · simp [hline]
  · simp [hline]

theorem intercalate_append (separator line : Bytes) {lines : List Bytes} (hlines : lines ≠ []) :
    separator.intercalate (lines ++ [line]) = separator.intercalate lines ++ (separator ++ line) := by
  induction lines with
  | nil => exact absurd rfl hlines
  | cons first rest ih =>
      cases rest with
      | nil => simp
      | cons second rest =>
          rw [List.cons_append, List.intercalate_cons_of_ne_nil (by simp), ih (List.cons_ne_nil _ _),
            List.intercalate_cons_of_ne_nil (List.cons_ne_nil _ _)]
          simp

theorem mem_intercalate {separator : Bytes} {lines : List Bytes} {byte : UInt8}
    (hbyte : byte ∈ separator.intercalate lines) :
    byte ∈ separator ∨ ∃ line ∈ lines, byte ∈ line := by
  induction lines with
  | nil => cases hbyte
  | cons first rest ih =>
      by_cases hrest : rest = []
      · rw [hrest, List.intercalate_singleton] at hbyte
        exact .inr ⟨first, List.mem_cons_self, hbyte⟩
      · rw [List.intercalate_cons_of_ne_nil hrest, List.mem_append, List.mem_append] at hbyte
        rcases hbyte with (hfirst | hmark) | hlater
        · exact .inr ⟨first, List.mem_cons_self, hfirst⟩
        · exact .inl hmark
        · rcases ih hlater with hmark | ⟨line, hline, hin⟩
          · exact .inl hmark
          · exact .inr ⟨line, List.mem_cons_of_mem _ hline, hin⟩

/-- The lines that were joined to nothing are empty. -/
theorem dropWhile_of_joinLines {lines : List Bytes} (hjoin : joinLines lines = []) :
    lines.dropWhile (· = []) = [] := by
  cases hrest : lines.dropWhile (· = []) with
  | nil => rfl
  | cons line rest =>
      have hhead : line ≠ [] := by
        have := List.head?_dropWhile_not (fun line : Bytes => decide (line = [])) lines
        rw [hrest] at this
        simpa using this
      rw [joinLines, hrest] at hjoin
      cases rest with
      | nil => exact absurd (by simpa using hjoin) hhead
      | cons second rest =>
          rw [List.intercalate_cons_cons] at hjoin
          simp at hjoin

/-- One more kept line. -/
theorem joinLines_append (lines : List Bytes) (line : Bytes) :
    joinLines (lines ++ [line]) =
      if joinLines lines = [] then line else joinLines lines ++ ([10] ++ line) := by
  by_cases hjoin : joinLines lines = []
  · have hempty := dropWhile_of_joinLines hjoin
    rw [if_pos hjoin, joinLines, List.dropWhile_append, hempty]
    exact joinLines_singleton line
  · have hrest : lines.dropWhile (· = []) ≠ [] := by
      intro hnone
      rw [joinLines, hnone] at hjoin
      exact hjoin rfl
    rw [if_neg hjoin, joinLines, List.dropWhile_append, if_neg (by simpa using hrest)]
    exact intercalate_append [10] line hrest

/-! ## The invariant of the loop -/

/-- The state of the loop after some lines of a text, `kept` being those it kept. -/
structure Compacted (text : Bytes) (kept : List Bytes) (state : Compaction) : Prop where
  length_eq : state.buffer.length = text.length + 1
  cursor_le : state.cursor ≤ text.length
  unread : state.buffer.drop state.cursor = (text ++ [0]).drop state.cursor
  behind : state.written ≤ state.cursor
  apart : state.cursor < text.length → state.written = 0 ∨ state.written < state.cursor
  joined : state.buffer.take state.written = joinLines kept
  counted : state.count = kept.length

section Loop

variable {text : Bytes} {kept : List Bytes} {state next : Compaction}
  {search : Option (Bytes → RegexStatus)}

/-- The line at a place of the text. -/
def lineOf (text : Bytes) (place : Nat) : Bytes := (text.drop place).takeWhile (· ≠ 10)

/-- The loop begins with all of the text unread. -/
theorem Compacted.start (text : Bytes) : Compacted text [] ⟨text ++ [0], 0, 0, 0⟩ where
  length_eq := by simp
  cursor_le := Nat.zero_le _
  unread := rfl
  behind := Nat.le_refl _
  apart _ := .inl rfl
  joined := rfl
  counted := rfl

/-- The bytes at the read position are the original ones. -/
theorem Compacted.textAt_eq (hstate : Compacted text kept state) (htext : 0 ∉ text) :
    textAt state.buffer state.cursor = text.drop state.cursor := by
  have hrest : 0 ∉ text.drop state.cursor := fun hzero => htext (List.mem_of_mem_drop hzero)
  rw [textAt, Arena.text, hstate.unread, List.drop_append_of_le_length hstate.cursor_le,
    List.takeWhile_append_of_pos]
  · simp
  · intro byte hbyte
    exact decide_eq_true fun hnul => hrest (hnul ▸ hbyte)

theorem Compacted.lineLength_eq (hstate : Compacted text kept state) (htext : 0 ∉ text) :
    lineLength state.buffer state.cursor = (lineOf text state.cursor).length := by
  rw [lineLength, hstate.textAt_eq htext, lineOf]

/-- The line that is matched is a line of the text. -/
theorem Compacted.line_eq (hstate : Compacted text kept state) (htext : 0 ∉ text) :
    state.line = lineOf text state.cursor := by
  have hinitial : (lineOf text state.cursor).length ≤ (text.drop state.cursor).length :=
    (List.takeWhile_prefix _).length_le
  rw [Compaction.line, hstate.lineLength_eq htext, Arena.read, hstate.unread,
    List.drop_append_of_le_length hstate.cursor_le, List.take_append_of_le_length hinitial]
  exact (List.prefix_iff_eq_take.mp (List.takeWhile_prefix _)).symm

theorem length_lineOf_le (text : Bytes) (place : Nat) :
    (lineOf text place).length ≤ text.length - place := by
  have hinitial : (lineOf text place).length ≤ (text.drop place).length :=
    (List.takeWhile_prefix _).length_le
  rwa [List.length_drop] at hinitial

/-- Where the next line begins: behind a LF, or at the end. -/
theorem Compacted.nextLine_cases (hstate : Compacted text kept state) (htext : 0 ∉ text) :
    (nextLine state.buffer state.cursor = state.cursor + (lineOf text state.cursor).length + 1 ∧
        nextLine state.buffer state.cursor ≤ text.length) ∨
      (nextLine state.buffer state.cursor = state.cursor + (lineOf text state.cursor).length ∧
        nextLine state.buffer state.cursor = text.length) := by
  have hle := hstate.cursor_le
  rw [nextLine, hstate.textAt_eq htext, hstate.lineLength_eq htext]
  by_cases hmember : 10 ∈ text.drop state.cursor
  · rw [if_pos hmember]
    refine .inl ⟨rfl, ?_⟩
    have hlength := congrArg List.length (takeWhile_separator hmember)
    rw [List.length_append, List.length_append, List.length_drop] at hlength
    change _ = (lineOf text state.cursor).length + (1 + _) at hlength
    omega
  · rw [if_neg hmember]
    have hwhole : lineOf text state.cursor = text.drop state.cursor := takeWhile_eq_self hmember
    refine .inr ⟨rfl, ?_⟩
    rw [hwhole, List.length_drop]
    omega

/-- The text after a line. -/
theorem Compacted.drop_nextLine (hstate : Compacted text kept state) (htext : 0 ∉ text) :
    text.drop (nextLine state.buffer state.cursor) =
      (text.drop state.cursor).drop ((lineOf text state.cursor).length + 1) := by
  rw [List.drop_drop]
  rcases hstate.nextLine_cases htext with ⟨hnext, _⟩ | ⟨hnext, hend⟩
  · rw [hnext, Nat.add_assoc]
  · rw [List.drop_eq_nil_of_le (by omega), List.drop_eq_nil_of_le (by omega)]

/-- The lines still to be read: the one at the cursor and those after it. -/
theorem Compacted.splitLines_eq (hstate : Compacted text kept state) (htext : 0 ∉ text)
    (hmore : state.cursor < text.length) : splitLines [10] (text.drop state.cursor) =
      lineOf text state.cursor ::
        splitLines [10] (text.drop (nextLine state.buffer state.cursor)) := by
  have hrest : text.drop state.cursor ≠ [] := by
    rw [Ne, List.drop_eq_nil_iff]
    omega
  rw [hstate.drop_nextLine htext]
  exact splitLines_singleton 10 hrest

/-- Reading on leaves the rest of the buffer as it was. -/
theorem Compacted.unread_later (hstate : Compacted text kept state) {place : Nat}
    (hplace : state.cursor ≤ place) : state.buffer.drop place = (text ++ [0]).drop place := by
  have hlater := congrArg (List.drop (place - state.cursor)) hstate.unread
  rwa [List.drop_drop, List.drop_drop, Nat.add_sub_of_le hplace] at hlater

/-- A line that is dropped. -/
theorem Compacted.skip (hstate : Compacted text kept state) (htext : 0 ∉ text) :
    Compacted text kept { state with cursor := nextLine state.buffer state.cursor } := by
  have hbehind := hstate.behind
  have hplace : state.cursor ≤ nextLine state.buffer state.cursor := by
    rcases hstate.nextLine_cases htext with ⟨hnext, _⟩ | ⟨hnext, _⟩ <;> omega
  have hend : nextLine state.buffer state.cursor ≤ text.length := by
    rcases hstate.nextLine_cases htext with ⟨_, hnext⟩ | ⟨_, hnext⟩ <;> omega
  exact {
    length_eq := hstate.length_eq
    cursor_le := hend
    unread := hstate.unread_later hplace
    behind := Nat.le_trans hbehind hplace
    apart := by
      intro hmore
      rcases hstate.nextLine_cases htext with ⟨hnext, _⟩ | ⟨_, hlast⟩
      · exact .inr (Nat.lt_of_le_of_lt hbehind (by dsimp only; omega))
      · exact absurd hlast (Nat.ne_of_lt hmore)
    joined := hstate.joined
    counted := hstate.counted }

/-- Moving the line at the cursor to a place that is not past it. -/
theorem Compacted.moved (hstate : Compacted text kept state) (htext : 0 ∉ text) {buffer : Bytes}
    {start : Nat} (hlength : buffer.length = text.length + 1)
    (hunread : buffer.drop state.cursor = state.buffer.drop state.cursor)
    (hstart : start ≤ state.cursor)
    (hjoined : buffer.take start ++ lineOf text state.cursor =
      joinLines (kept ++ [lineOf text state.cursor])) :
    Compacted text (kept ++ [lineOf text state.cursor])
      ⟨Arena.write buffer start (lineOf text state.cursor), nextLine state.buffer state.cursor,
        start + (lineOf text state.cursor).length, state.count + 1⟩ := by
  have hle := hstate.cursor_le
  have hbound := length_lineOf_le text state.cursor
  have hcases := hstate.nextLine_cases htext
  have hfits : start + (lineOf text state.cursor).length ≤ buffer.length := by omega
  have hreached : state.cursor + (lineOf text state.cursor).length ≤
      nextLine state.buffer state.cursor := by
    rcases hcases with ⟨hnext, _⟩ | ⟨hnext, _⟩ <;> omega
  exact {
    length_eq := (Arena.length_write hfits).trans hlength
    cursor_le := by
      change nextLine state.buffer state.cursor ≤ text.length
      rcases hcases with ⟨_, hend⟩ | ⟨_, hend⟩ <;> omega
    unread := by
      change (Arena.write buffer start (lineOf text state.cursor)).drop
        (nextLine state.buffer state.cursor) = _
      have hlater := congrArg
        (List.drop (nextLine state.buffer state.cursor - state.cursor)) hunread
      rw [List.drop_drop, List.drop_drop, Nat.add_sub_of_le (by omega)] at hlater
      rw [Arena.drop_write hfits (by omega), hlater, hstate.unread_later (by omega)]
    behind := by
      change start + _ ≤ nextLine state.buffer state.cursor
      omega
    apart := by
      intro hmore
      change nextLine state.buffer state.cursor < text.length at hmore
      rcases hcases with ⟨hnext, _⟩ | ⟨_, hend⟩
      · exact .inr (by dsimp only; omega)
      · omega
    joined := by
      change (Arena.write buffer start (lineOf text state.cursor)).take _ = _
      rw [Arena.take_write (by omega), hjoined]
    counted := by
      change state.count + 1 = _
      rw [hstate.counted, List.length_append, List.length_singleton] }

/-- Separating leaves the bytes from the cursor on alone. -/
theorem Compacted.separated_drop (hstate : Compacted text kept state)
    (hmore : state.cursor < text.length) :
    state.separated.length = state.buffer.length ∧
      state.separated.drop state.cursor = state.buffer.drop state.cursor := by
  have hlength := hstate.length_eq
  unfold Compaction.separated
  by_cases hwritten : state.written = 0
  · rw [if_neg (not_not.mpr hwritten)]
    exact ⟨rfl, rfl⟩
  · have hapart := (hstate.apart hmore).resolve_left hwritten
    have hfits : state.written + [(10 : UInt8)].length ≤ state.buffer.length := by
      rw [List.length_singleton]
      omega
    rw [if_pos hwritten]
    exact ⟨Arena.length_write hfits, Arena.drop_write hfits hapart⟩

/-- The line that is copied is the one that was matched. -/
theorem Compacted.copied_eq (hstate : Compacted text kept state) (htext : 0 ∉ text)
    (hmore : state.cursor < text.length) : state.copied = lineOf text state.cursor := by
  have hline := hstate.line_eq htext
  rw [Compaction.copied, Arena.read, (hstate.separated_drop hmore).2, hline]
  rwa [Compaction.line, hstate.lineLength_eq htext] at hline

/-- A line that is kept moves behind what was written. -/
theorem Compacted.keep (hstate : Compacted text kept state) (htext : 0 ∉ text)
    (hmore : state.cursor < text.length) :
    Compacted text (kept ++ [lineOf text state.cursor]) state.keep := by
  have hlength := hstate.length_eq
  have htaken : (joinLines kept).length = state.written := by
    have hbehind := hstate.behind
    rw [← hstate.joined, List.length_take]
    omega
  obtain ⟨hseparated, hunread⟩ := hstate.separated_drop hmore
  unfold Compaction.keep
  rw [hstate.copied_eq htext hmore, hstate.line_eq htext]
  apply hstate.moved htext (hseparated.trans hlength) hunread
  · by_cases hwritten : state.written = 0
    · rw [if_neg (not_not.mpr hwritten)]
      exact hstate.behind
    · rw [if_pos hwritten]
      exact (hstate.apart hmore).resolve_left hwritten
  · unfold Compaction.separated
    by_cases hwritten : state.written = 0
    · have hnone : joinLines kept = [] := List.eq_nil_of_length_eq_zero (htaken.trans hwritten)
      rw [if_neg (not_not.mpr hwritten), if_neg (not_not.mpr hwritten), hwritten, joinLines_append,
        if_pos hnone]
      rfl
    · have hsome : joinLines kept ≠ [] := by
        intro hnone
        rw [hnone] at htaken
        exact hwritten htaken.symm
      have hbehind := hstate.behind
      have hmark := @Arena.take_write _ state.buffer [10] state.written (by omega)
      rw [List.length_singleton] at hmark
      rw [if_pos hwritten, if_pos hwritten, joinLines_append, if_neg hsome, hmark, hstate.joined,
        List.append_assoc]

/-- One round of the loop: the line at the cursor is kept when the filter keeps it. -/
theorem Compacted.round (hstate : Compacted text kept state) (htext : 0 ∉ text)
    (hmore : state.cursor < text.length) (hround : state.round search = .ok next) :
    next.cursor = nextLine state.buffer state.cursor ∧
      Compacted text (kept ++ [lineOf text state.cursor].filter (keeps search)) next := by
  unfold Compaction.round at hround
  rw [hstate.line_eq htext] at hround
  cases search with
  | none =>
      obtain rfl := Except.ok.inj hround
      exact ⟨rfl, hstate.keep htext hmore⟩
  | some search =>
      dsimp only at hround
      cases hstatus : search (lineOf text state.cursor) with
      | ok =>
          rw [hstatus] at hround
          obtain rfl := Except.ok.inj hround
          have hkept : keeps (some search) (lineOf text state.cursor) = true := decide_eq_true hstatus
          rw [List.filter_singleton, hkept]
          exact ⟨rfl, hstate.keep htext hmore⟩
      | noMatch =>
          rw [hstatus] at hround
          obtain rfl := Except.ok.inj hround
          have hdropped : keeps (some search) (lineOf text state.cursor) = false := by
            simp [keeps, hstatus]
          rw [List.filter_singleton, hdropped]
          exact ⟨rfl, (List.append_nil kept).symm ▸ hstate.skip htext⟩
      | _ => rw [hstatus] at hround; cases hround

theorem Compacted.textAt_eq_nil_iff (hstate : Compacted text kept state) (htext : 0 ∉ text) :
    textAt state.buffer state.cursor = [] ↔ state.cursor = text.length := by
  have hle := hstate.cursor_le
  rw [hstate.textAt_eq htext, List.drop_eq_nil_iff]
  omega

/-- The kept lines of a text, seen from a place in it. -/
theorem Compacted.keptLines_eq (hstate : Compacted text kept state) (htext : 0 ∉ text)
    (hmore : state.cursor < text.length) : keptLines search (text.drop state.cursor) =
      [lineOf text state.cursor].filter (keeps search) ++
        keptLines search (text.drop (nextLine state.buffer state.cursor)) := by
  rw [keptLines, hstate.splitLines_eq htext hmore, ← List.singleton_append, List.filter_append]
  rfl

theorem Compacted.cursor_lt_nextLine (hstate : Compacted text kept state) (htext : 0 ∉ text)
    (hmore : state.cursor < text.length) : state.cursor < nextLine state.buffer state.cursor := by
  rcases hstate.nextLine_cases htext with ⟨hnext, _⟩ | ⟨_, hend⟩ <;> omega

/-- The states of the loop on a text. -/
inductive Reached (search : Option (Bytes → RegexStatus)) (text : Bytes) : Compaction → Prop
  | start : Reached search text ⟨text ++ [0], 0, 0, 0⟩
  | round {state next : Compaction} (hstate : Reached search text state)
      (hmore : textAt state.buffer state.cursor ≠ []) (hround : state.round search = .ok next) :
      Reached search text next

/-- The invariant holds at every state of the loop. -/
theorem Reached.compacted (hreached : Reached search text state) (htext : 0 ∉ text) :
    ∃ kept, Compacted text kept state := by
  induction hreached with
  | start => exact ⟨[], .start text⟩
  | round _ hmore hround ih =>
      obtain ⟨kept, hstate⟩ := ih
      have hlt := Nat.lt_of_le_of_ne hstate.cursor_le (mt (hstate.textAt_eq_nil_iff htext).mpr hmore)
      exact ⟨_, (hstate.round htext hlt hround).2⟩

/-- The states the loop goes through, up to the end of the text. -/
theorem Reached.compact {final : Compaction} (hreached : Reached search text state)
    (htext : 0 ∉ text) {rounds : Nat} (hrounds : text.length - state.cursor ≤ rounds)
    (hcompact : compact search rounds state = .ok final) :
    Reached search text final ∧ textAt final.buffer final.cursor = [] := by
  obtain ⟨kept, hstate⟩ := hreached.compacted htext
  induction rounds generalizing kept state with
  | zero =>
      obtain rfl := Except.ok.inj hcompact
      have hle := hstate.cursor_le
      exact ⟨hreached, (hstate.textAt_eq_nil_iff htext).mpr (by omega)⟩
  | succ rounds ih =>
      rw [Native.compact] at hcompact
      by_cases hend : textAt state.buffer state.cursor = []
      · rw [if_pos hend] at hcompact
        obtain rfl := Except.ok.inj hcompact
        exact ⟨hreached, hend⟩
      · rw [if_neg hend] at hcompact
        have hmore := Nat.lt_of_le_of_ne hstate.cursor_le
          (mt (hstate.textAt_eq_nil_iff htext).mpr hend)
        cases hround : state.round search with
        | error status => rw [hround] at hcompact; cases hcompact
        | ok next =>
            rw [hround] at hcompact
            obtain ⟨hcursor, hnext⟩ := hstate.round htext hmore hround
            have hlater := hstate.cursor_lt_nextLine htext hmore
            exact ih (hreached.round hend hround) (by omega) hcompact _ hnext

/-- As many rounds as there are bytes left read the text to its end. -/
theorem Compacted.compact {final : Compaction} (hstate : Compacted text kept state)
    (htext : 0 ∉ text) {rounds : Nat} (hrounds : text.length - state.cursor ≤ rounds)
    (hcompact : compact search rounds state = .ok final) :
    Compacted text (kept ++ keptLines search (text.drop state.cursor)) final := by
  induction rounds generalizing kept state with
  | zero =>
      obtain rfl := Except.ok.inj hcompact
      rw [List.drop_eq_nil_of_le (by omega), keptLines, splitLines_nil, List.filter_nil,
        List.append_nil]
      exact hstate
  | succ rounds ih =>
      rw [Native.compact] at hcompact
      by_cases hend : textAt state.buffer state.cursor = []
      · rw [if_pos hend] at hcompact
        obtain rfl := Except.ok.inj hcompact
        have hlast := (hstate.textAt_eq_nil_iff htext).mp hend
        rw [List.drop_eq_nil_of_le (Nat.le_of_eq hlast.symm), keptLines, splitLines_nil,
          List.filter_nil, List.append_nil]
        exact hstate
      · rw [if_neg hend] at hcompact
        have hmore := Nat.lt_of_le_of_ne hstate.cursor_le
          (mt (hstate.textAt_eq_nil_iff htext).mpr hend)
        cases hround : state.round search with
        | error status => rw [hround] at hcompact; cases hcompact
        | ok next =>
            rw [hround] at hcompact
            obtain ⟨hcursor, hnext⟩ := hstate.round htext hmore hround
            have hlater := hstate.cursor_lt_nextLine htext hmore
            have hfinal := ih hnext (by omega) hcompact
            rwa [hcursor, List.append_assoc, ← hstate.keptLines_eq htext hmore] at hfinal

/-- The buffer after the loop, and the count. -/
theorem compact_eq {final : Compaction} (htext : 0 ∉ text)
    (hcompact : compact search text.length ⟨text ++ [0], 0, 0, 0⟩ = .ok final) :
    final.buffer.take final.written = joinLines (keptLines search text) ∧
      final.count = (keptLines search text).length := by
  have hfinal := (Compacted.start text).compact htext (Nat.le_refl _) hcompact
  rw [List.nil_append, List.drop_zero] at hfinal
  exact ⟨hfinal.joined, hfinal.counted⟩

/-- The joined lines have no NUL of their own. -/
theorem joinLines_nulFree (htext : 0 ∉ text) : 0 ∉ joinLines (keptLines search text) := by
  intro hzero
  rcases mem_intercalate hzero with hmark | ⟨line, hline, hbyte⟩
  · exact absurd (List.mem_singleton.mp hmark) (by decide)
  · have hkept := List.dropWhile_subset _ hline
    exact htext (subset_of_mem_splitLines (List.cons_ne_nil _ _) (List.mem_filter.mp hkept).1 hbyte)

end Loop

end Praktor.Native
