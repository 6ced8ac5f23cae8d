/-
# Arrays of a document

`workflow_value.c`: a value is appended to the array that a path leads to, as a copy or by handing
it over, and an item is erased from the document when it is an array.  An item is erased by copying
the others into a new array, so a failure on the way leaves the document alone.
-/

import Praktor.Documents.AssignmentFailures

namespace Praktor.Documents

open Praktor.Data

/-! ## Arrays -/

/-- An item behind the others; what is no array has none. -/
def pushItem (item : Json) : Json → Json
  | .array items => .array (items ++ [item])
  | node => node

/-- `json_array_add_checked` on the array that a path of a tree leads to: it adopts the child, or it
changes nothing. -/
def Forest.addItem (target : Nat) (path : List Bytes) (child : Nat) (forest : Forest) :
    Option (Bool × Forest) :=
  match forest.trees target, forest.trees child with
  | some tree, some value =>
      let (failed, asked) := forest.fails
      if failed then some (false, asked)
      else
        some (true,
          { asked with
            trees := Function.update (Function.update asked.trees child none) target
              (some (Json.modifyAt path (pushItem value) tree)) })
  | _, _ => none

/-! ## The functions -/

/-- The value is appended once it is copied or taken. -/
def appendPending (root : Nat) (path : List Bytes) (taking : Taking) (copied : Bool) (pending : Nat)
    (holders : Holders) (forest : Forest) : Option Assigned :=
  match forest.addItem root path pending with
  | none => none
  | some (true, added) =>
      some ⟨.ok, none, if taking = .other then { holders with taken := none } else holders, added⟩
  | some (false, refused) =>
      (if copied then refused.release (some pending) else some refused).map fun freed =>
        ⟨.enomem, some "Failed to append WorkflowValue path", holders, freed⟩

/-- `append_value`. -/
def appendValue (keys : List (Option Bytes)) (source : Option JsonRef) (taking : Taking)
    (holders : Holders) (forest : Forest) : Option Assigned :=
  match source, validPath keys with
  | some source, some path =>
      match holders.root, praktorValueFind (holders.root.bind forest.trees) keys with
      | some root, (.ok, some (.array _)) =>
          if taking = .other then
            match holders.taken with
            | none => none
            | some pending => appendPending root path taking false pending holders forest
          else
            match Json.findPath (forest.trees source.tree) source.path with
            | none => none
            | some value =>
                match forest.allocate value with
                | (none, asked) =>
                    some ⟨.enomem, some "Failed to clone WorkflowValue", holders, asked⟩
                | (some pending, created) =>
                    appendPending root path taking true pending holders created
      | _, _ => some ⟨.einval, some "WorkflowValue path is not an array", holders, forest⟩
  | _, _ => some ⟨.einval, some "Invalid WorkflowValue path or source", holders, forest⟩

/-- `praktor_value_append_copy`. -/
def praktorValueAppendCopy (keys : List (Option Bytes)) (source : Option JsonRef) (root : Option Nat)
    (forest : Forest) : Option Assigned :=
  appendValue keys source .copy ⟨root, none⟩ forest

/-- `praktor_value_append_take`, with the value in a variable of its own. -/
def praktorValueAppendTake (keys : List (Option Bytes)) (root taken : Option Nat) (forest : Forest) :
    Option Assigned :=
  appendValue keys (taken.map fun tree => ⟨tree, []⟩) .other ⟨root, taken⟩ forest

/-- `praktor_value_append_take`, with the document's own variable. -/
def praktorValueAppendTakeRoot (keys : List (Option Bytes)) (root : Option Nat) (forest : Forest) :
    Option Assigned :=
  appendValue keys (root.map fun tree => ⟨tree, []⟩) .root ⟨root, none⟩ forest

/-- The loop of `praktor_value_erase` from one item on; nothing is left of the copies when one of
them fails. -/
def copyExcept (index : Nat) : Nat → List Json → Nat → Forest → Option (Bool × Forest)
  | _, [], _, forest => some (true, forest)
  | current, item :: rest, replacement, forest =>
      if current = index then copyExcept index (current + 1) rest replacement forest
      else
        match forest.allocate item with
        | (none, asked) => (asked.release (some replacement)).map fun freed => (false, freed)
        | (some child, created) =>
            match created.addItem replacement [] child with
            | none => none
            | some (true, added) => copyExcept index (current + 1) rest replacement added
            | some (false, refused) =>
                (refused.release (some child)).bind fun freed =>
                  (freed.release (some replacement)).map fun cleared => (false, cleared)

/-- `praktor_value_erase`. -/
def praktorValueErase (index : Nat) (root : Option Nat) (forest : Forest) : Option Assigned :=
  match root.bind forest.trees with
  | some (.array items) =>
      if items.length ≤ index then
        some ⟨.enoent, some "WorkflowValue array index out of range", ⟨root, none⟩, forest⟩
      else
        match forest.allocate (.array []) with
        | (none, asked) =>
            some ⟨.enomem, some "Failed to create WorkflowValue array", ⟨root, none⟩, asked⟩
        | (some replacement, created) =>
            match copyExcept index 0 items replacement created with
            | none => none
            | some (false, freed) =>
                some ⟨.enomem, some "Failed to copy WorkflowValue array", ⟨root, none⟩, freed⟩
            | some (true, copied) =>
                (copied.release root).map fun freed =>
                  ⟨.ok, none, ⟨some replacement, none⟩, freed⟩
  | _ => some ⟨.enoent, some "WorkflowValue array index out of range", ⟨root, none⟩, forest⟩

/-! ## What the library leaves -/

section Steps

variable {trees : Nat → Option Json} {forest : Forest}

/-- A new tree, or a failure that was due. -/
theorem Owns.allocate_cases (howns : Owns trees forest) (value : Json) :
    (∃ asked, forest.allocate value = (none, asked) ∧ Owns trees asked ∧ true ∈ forest.failures) ∨
      ∃ handle created, forest.allocate value = (some handle, created) ∧ trees handle = none ∧
        Owns (Function.update trees handle (some value)) created ∧
        created.failures <:+ forest.failures := by
  have hasked := howns.fails
  have hcases := fails_cases forest
  unfold Forest.allocate
  generalize forest.fails = answer at hasked hcases ⊢
  obtain ⟨failed, asked⟩ := answer
  rcases hcases with ⟨hfailed, hdue⟩ | ⟨hfailed, hrest⟩
  · obtain rfl : failed = true := hfailed
    exact .inl ⟨asked, rfl, hasked, hdue⟩
  · obtain rfl : failed = false := hfailed
    refine .inr ⟨asked.next, _, rfl, hasked.fresh _ (Nat.le_refl _), ⟨?_, fun handle hle => ?_⟩, hrest⟩
    · rw [← hasked.holds]
    · have hlt : asked.next < handle := hle
      rw [Function.update_of_ne hlt.ne']
      exact hasked.fresh handle hlt.le

/-- Adding an item adopts the child, or changes nothing. -/
theorem Owns.addItem (howns : Owns trees forest) {target child : Nat} {tree value : Json}
    (htarget : trees target = some tree) (hchild : trees child = some value) (path : List Bytes) :
    (∃ refused, forest.addItem target path child = some (false, refused) ∧ Owns trees refused ∧
        true ∈ forest.failures) ∨
      ∃ added, forest.addItem target path child = some (true, added) ∧
        Owns (Function.update (Function.update trees child none) target
          (some (Json.modifyAt path (pushItem value) tree))) added ∧
        added.failures <:+ forest.failures := by
  have hasked := howns.fails
  have hcases := fails_cases forest
  unfold Forest.addItem
  rw [howns.holds, htarget, hchild]
  dsimp only
  generalize forest.fails = answer at hasked hcases ⊢
  obtain ⟨failed, asked⟩ := answer
  rcases hcases with ⟨hfailed, hdue⟩ | ⟨hfailed, hrest⟩
  · obtain rfl : failed = true := hfailed
    exact .inl ⟨asked, rfl, hasked, hdue⟩
  · obtain rfl : failed = false := hfailed
    refine .inr ⟨_, rfl, ⟨by rw [← hasked.holds], fun other hle => ?_⟩, hrest⟩
    have hnone := hasked.fresh other hle
    have htargetNe : other ≠ target := by
      rintro rfl
      simp [htarget] at hnone
    rw [Function.update_of_ne htargetNe]
    by_cases hother : other = child
    · rw [hother, Function.update_self]
    · rw [Function.update_of_ne hother]
      exact hnone

end Steps

/-! ## What the functions come to -/

section Outcome

variable {trees : Nat → Option Json} {forest : Forest} {holders : Holders} {path : List Bytes}
  {taking : Taking} {value : Json}

/-- A call that fails met a failure that was due. -/
def Assigned.Excused (outcome : Assigned) (forest : Forest) : Prop :=
  outcome.code ≠ .ok → true ∈ forest.failures

/-- A copy is appended. -/
theorem appendPending_copied {root pending : Nat} {tree : Json} (hheld : Held trees holders)
    (hroot : holders.root = some root) (htree : trees root = some tree)
    (hpending : trees pending = none) (hother : taking ≠ .other)
    (howns : Owns (Function.update trees pending (some value)) forest) :
    ∃ outcome, appendPending root path taking true pending holders forest = some outcome ∧
      Settled trees holders taking (Json.modifyAt path (pushItem value) tree) outcome ∧
      outcome.Excused forest := by
  have hne : root ≠ pending := by
    rintro rfl
    rw [htree] at hpending
    cases hpending
  have htree' : Function.update trees pending (some value) root = some tree := by
    rw [Function.update_of_ne hne, htree]
  unfold appendPending
  rcases howns.addItem htree' (Function.update_self _ _ _) path with
    ⟨refused, hrefused, hownsRefused, hdue⟩ | ⟨added, hadded, hownsAdded, -⟩
  · obtain ⟨freed, hfreed, hownsFreed⟩ := hownsRefused.release (Function.update_self _ _ _)
    rw [update_none hpending] at hownsFreed
    rw [hrefused]
    dsimp only
    rw [if_pos rfl, hfreed]
    exact ⟨_, rfl, .refused (by decide) hownsFreed, fun _ => hdue⟩
  · rw [hadded]
    dsimp only
    rw [if_neg hother]
    rw [update_none hpending] at hownsAdded
    obtain ⟨root', taken⟩ := holders
    obtain rfl : root' = some root := hroot
    refine ⟨_, rfl, .assigned (.inr (.inl rfl)) (if_neg hother).symm ?_, fun hcode =>
      absurd rfl hcode⟩
    rw [if_neg hother]
    show Owns (Function.update (Function.update trees root none) root _) added
    rw [Function.update_idem]
    exact hownsAdded

/-- The value that is handed over is appended. -/
theorem appendPending_taken {root pending : Nat} {tree : Json} (hheld : Held trees holders)
    (hroot : holders.root = some root) (htree : trees root = some tree)
    (htaken : holders.taken = some pending) (hvalue : trees pending = some value)
    (howns : Owns trees forest) :
    ∃ outcome, appendPending root path .other false pending holders forest = some outcome ∧
      Settled trees holders .other (Json.modifyAt path (pushItem value) tree) outcome ∧
      outcome.Excused forest := by
  have hne : holders.taken ≠ some root := hheld.apart root hroot
  unfold appendPending
  rcases howns.addItem htree hvalue path with
    ⟨refused, hrefused, hownsRefused, hdue⟩ | ⟨added, hadded, hownsAdded, -⟩
  · rw [hrefused]
    exact ⟨_, rfl, .refused (by decide) hownsRefused, fun _ => hdue⟩
  · rw [hadded]
    dsimp only
    rw [if_pos rfl, hroot]
    refine ⟨_, rfl, .assigned (.inr (.inl hroot)) (if_pos rfl).symm ?_, fun hcode =>
      absurd rfl hcode⟩
    rw [if_pos rfl, htaken, hroot]
    rw [htaken] at hne
    rw [cleared_some root, cleared_update hne, Function.update_idem]
    exact hownsAdded

/-- `append_value` to an array that is there. -/
theorem appendValue_settled {keys : List (Option Bytes)} {source : JsonRef} {tree : Json}
    {items : List Json} (hheld : Held trees holders) (howns : Owns trees forest)
    (hsourced : Sourced trees holders taking source value) (hvalid : validPath keys = some path)
    (htree : holders.root.bind trees = some tree)
    (harray : Json.findPath (some tree) path = some (.array items)) :
    ∃ outcome, appendValue keys (some source) taking holders forest = some outcome ∧
      Settled trees holders taking (Json.modifyAt path (pushItem value) tree) outcome ∧
      outcome.Excused forest := by
  obtain ⟨root, hroot, htree'⟩ := Option.bind_eq_some_iff.mp htree
  have hfind : praktorValueFind (some tree) keys = (.ok, some (.array items)) := by
    unfold praktorValueFind
    rw [hvalid]
    dsimp only
    rw [harray]
  unfold appendValue
  rw [hvalid, howns.holds, htree, hfind, hroot]
  dsimp only
  by_cases hother : taking = .other
  · subst hother
    obtain ⟨htaken, hempty⟩ := hsourced.handed rfl
    have hvalue := hsourced.found
    rw [hempty, Json.findPath_nil] at hvalue
    rw [if_pos rfl, htaken]
    exact appendPending_taken hheld hroot htree' htaken hvalue howns
  · rw [if_neg hother, hsourced.found]
    dsimp only
    rcases howns.allocate_cases value with ⟨asked, hasked, hownsAsked, hdue⟩ |
      ⟨pending, created, hcreated, hpending, hownsCreated, hrest⟩
    · rw [hasked]
      exact ⟨_, rfl, .refused (by decide) hownsAsked, fun _ => hdue⟩
    · rw [hcreated]
      obtain ⟨outcome, houtcome, hsettled, hexcused⟩ :=
        appendPending_copied hheld hroot htree' hpending hother hownsCreated
      exact ⟨outcome, houtcome, hsettled, fun hcode => hrest.mem (hexcused hcode)⟩

/-- `append_value` without a source or with keys that are no path. -/
theorem appendValue_invalid {keys : List (Option Bytes)} {source : Option JsonRef}
    (hinvalid : source = none ∨ validPath keys = none) :
    appendValue keys source taking holders forest =
      some ⟨.einval, some "Invalid WorkflowValue path or source", holders, forest⟩ := by
  unfold appendValue
  rcases hinvalid with rfl | hvalid
  · rfl
  · rw [hvalid]
    cases source <;> rfl

/-- `append_value` to what is no array. -/
theorem appendValue_misplaced {keys : List (Option Bytes)} {source : JsonRef}
    (hvalid : validPath keys = some path)
    (harray : ∀ tree items, holders.root.bind forest.trees = some tree →
      Json.findPath (some tree) path ≠ some (.array items)) :
    appendValue keys (some source) taking holders forest =
      some ⟨.einval, some "WorkflowValue path is not an array", holders, forest⟩ := by
  unfold appendValue
  rw [hvalid]
  dsimp only
  split
  · rename_i root items hroot hfind
    unfold praktorValueFind at hfind
    rw [hvalid] at hfind
    dsimp only at hfind
    cases htree : holders.root.bind forest.trees with
    | none =>
        rw [htree, Json.findPath_none] at hfind
        cases hfind
    | some tree =>
        cases hvalue : Json.findPath (some tree) path with
        | none =>
            rw [htree, hvalue] at hfind
            cases hfind
        | some value =>
            rw [htree, hvalue] at hfind
            cases hfind
            exact absurd hvalue (harray tree items htree)
  · rfl

/-- The items but one, of which the first has this index. -/
def itemsExcept (index : Nat) : Nat → List Json → List Json
  | _, [] => []
  | current, item :: rest =>
      if current = index then itemsExcept index (current + 1) rest
      else item :: itemsExcept index (current + 1) rest

/-- The loop of `praktor_value_erase`: the items are behind those that were copied before, or the
new array is gone. -/
theorem copyExcept_owns (index current : Nat) (items copied : List Json) {replacement : Nat}
    (hreplacement : trees replacement = none)
    (howns : Owns (Function.update trees replacement (some (.array copied))) forest) :
    (∃ freed, copyExcept index current items replacement forest = some (false, freed) ∧
        Owns trees freed ∧ true ∈ forest.failures) ∨
      ∃ made, copyExcept index current items replacement forest = some (true, made) ∧
        Owns (Function.update trees replacement
          (some (.array (copied ++ itemsExcept index current items)))) made := by
  induction items generalizing current copied forest with
  | nil => exact .inr ⟨forest, rfl, by rw [itemsExcept, List.append_nil]; exact howns⟩
  | cons item rest ih =>
      unfold copyExcept itemsExcept
      by_cases hskip : current = index
      · rw [if_pos hskip, if_pos hskip]
        exact ih (current + 1) copied howns
      · rw [if_neg hskip, if_neg hskip]
        rcases howns.allocate_cases item with ⟨asked, hasked, hownsAsked, hdue⟩ |
          ⟨child, created, hcreated, hchild, hownsCreated, hrest⟩
        · obtain ⟨freed, hfreed, hownsFreed⟩ := hownsAsked.release (Function.update_self _ _ _)
          rw [update_none hreplacement] at hownsFreed
          rw [hasked]
          exact .inl ⟨freed, by simp only [hfreed, Option.map_some], hownsFreed, hdue⟩
        · have hne : replacement ≠ child := by
            rintro rfl
            rw [Function.update_self] at hchild
            cases hchild
          have htarget : Function.update (Function.update trees replacement (some (.array copied)))
              child (some item) replacement = some (.array copied) := by
            rw [Function.update_of_ne hne, Function.update_self]
          rw [hcreated]
          dsimp only
          rcases hownsCreated.addItem htarget (Function.update_self _ _ _) [] with
            ⟨refused, hrefused, hownsRefused, hdue⟩ | ⟨added, hadded, hownsAdded, hlater⟩
          · obtain ⟨freed, hfreed, hownsFreed⟩ := hownsRefused.release (Function.update_self _ _ _)
            rw [update_none hchild] at hownsFreed
            obtain ⟨last, hlast, hownsLast⟩ := hownsFreed.release (Function.update_self _ _ _)
            rw [update_none hreplacement] at hownsLast
            rw [hrefused]
            exact .inl ⟨last, by simp only [hfreed, Option.bind_some, hlast, Option.map_some],
              hownsLast, hrest.mem hdue⟩
          · have hadded' : Function.update (Function.update (Function.update (Function.update trees
                replacement (some (.array copied))) child (some item)) child none) replacement
                  (some (Json.modifyAt [] (pushItem item) (.array copied))) =
                Function.update trees replacement (some (.array (copied ++ [item]))) := by
              rw [update_none hchild, Function.update_idem]
              rfl
            rw [hadded'] at hownsAdded
            rw [hadded]
            dsimp only
            have hfailures : ∀ failure, failure ∈ added.failures → failure ∈ forest.failures :=
              fun failure hfailure => hrest.mem (hlater.mem hfailure)
            rcases ih (current + 1) (copied ++ [item]) hownsAdded with
              ⟨freed, hfreed, hownsFreed, hdue⟩ | ⟨made, hmade, hownsMade⟩
            · exact .inl ⟨freed, hfreed, hownsFreed, hfailures _ hdue⟩
            · rw [List.append_assoc] at hownsMade
              exact .inr ⟨made, hmade, hownsMade⟩

theorem itemsExcept_of_lt (items : List Json) {index current : Nat} (hlt : index < current) :
    itemsExcept index current items = items := by
  induction items generalizing current with
  | nil => rfl
  | cons item rest ih =>
      unfold itemsExcept
      rw [if_neg (Nat.ne_of_gt hlt), ih (Nat.lt_succ_of_lt hlt)]

theorem itemsExcept_eq (items : List Json) {index current : Nat} (hle : current ≤ index) :
    itemsExcept index current items = items.eraseIdx (index - current) := by
  induction items generalizing current with
  | nil => rfl
  | cons item rest ih =>
      unfold itemsExcept
      by_cases hskip : current = index
      · rw [if_pos hskip, itemsExcept_of_lt rest (by omega), hskip, Nat.sub_self]
        rfl
      · have hindex : index - current = index - (current + 1) + 1 := by omega
        rw [if_neg hskip, ih (by omega), hindex, List.eraseIdx_cons_succ]

/-- `praktor_value_erase` of an item that is there. -/
theorem praktorValueErase_settled {index : Nat} {items : List Json} {root : Option Nat}
    (hlives : ∀ held, root = some held → trees held ≠ none) (howns : Owns trees forest)
    (htree : root.bind trees = some (.array items)) (hindex : index < items.length) :
    ∃ outcome, praktorValueErase index root forest = some outcome ∧
      Settled trees ⟨root, none⟩ .copy (.array (items.eraseIdx index)) outcome ∧
      outcome.Excused forest := by
  unfold praktorValueErase
  rw [howns.holds, htree]
  dsimp only
  rw [if_neg (Nat.not_le.mpr hindex)]
  rcases howns.allocate_cases (.array []) with ⟨asked, hasked, hownsAsked, hdue⟩ |
    ⟨replacement, created, hcreated, hreplacement, hownsCreated, hrest⟩
  · rw [hasked]
    exact ⟨_, rfl, .refused (by decide) hownsAsked, fun _ => hdue⟩
  · rw [hcreated]
    dsimp only
    rcases copyExcept_owns index 0 items [] hreplacement hownsCreated with
      ⟨freed, hfreed, hownsFreed, hdue⟩ | ⟨copied, hcopied, hownsCopied⟩
    · rw [hfreed]
      exact ⟨_, rfl, .refused (by decide) hownsFreed, fun _ => hrest.mem hdue⟩
    · have hroot : root ≠ some replacement := fun hsame =>
        hlives replacement hsame hreplacement
      have hlive : ∀ held, root = some held → Function.update trees replacement
          (some (.array ([] ++ itemsExcept index 0 items))) held ≠ none := by
        rintro held hsame
        have hne : held ≠ replacement := fun heq => hroot (hsame.trans (congrArg some heq))
        rw [Function.update_of_ne hne]
        exact hlives held hsame
      obtain ⟨last, hlast, hownsLast⟩ := hownsCopied.clear hlive
      rw [hcopied]
      dsimp only
      rw [hlast]
      refine ⟨_, rfl, .assigned (.inl hreplacement) rfl ?_, fun hcode => absurd rfl hcode⟩
      rw [cleared_update hroot, List.nil_append, itemsExcept_eq items (Nat.zero_le _),
        Nat.sub_zero] at hownsLast
      exact hownsLast

/-- `praktor_value_erase` of an item that is not there. -/
theorem praktorValueErase_missing {index : Nat} {root : Option Nat}
    (hmissing : ∀ items, root.bind forest.trees = some (.array items) → items.length ≤ index) :
    praktorValueErase index root forest =
      some ⟨.enoent, some "WorkflowValue array index out of range", ⟨root, none⟩, forest⟩ := by
  unfold praktorValueErase
  split
  · rename_i items hitems
    exact if_pos (hmissing items hitems)
  · rfl

end Outcome

end Praktor.Documents
