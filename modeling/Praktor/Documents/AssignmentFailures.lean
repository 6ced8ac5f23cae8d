/-
# Assignments that do not fail

A call of `set_value` with a path that the document admits goes well where no call of the JSON
library fails.
-/

import Praktor.Documents.AssignmentOutcome

namespace Praktor.Documents

open Praktor.Data

/-- No failure of the library is due. -/
def Forest.Quiet (forest : Forest) : Prop := true ∉ forest.failures

/-- A call goes well, and no failure is due after it. -/
def Assigned.Calm (outcome : Assigned) : Prop := outcome.code = .ok ∧ outcome.forest.Quiet

section Calls

variable {objects : JsonObjects} {forest : Forest}

/-- A call of the library fails when a failure is due. -/
theorem fails_cases (forest : Forest) :
    (forest.fails.1 = true ∧ true ∈ forest.failures) ∨
      (forest.fails.1 = false ∧ forest.fails.2.failures <:+ forest.failures) := by
  unfold Forest.fails
  cases hfailures : forest.failures with
  | nil =>
      refine .inr ⟨rfl, ?_⟩
      show forest.failures <:+ []
      rw [hfailures]
  | cons failure rest =>
      cases failure with
      | true => exact .inl ⟨rfl, List.mem_cons_self⟩
      | false => exact .inr ⟨rfl, List.suffix_cons _ _⟩

namespace Forest.Quiet

theorem fails (hquiet : forest.Quiet) : ∃ asked, forest.fails = (false, asked) ∧ asked.Quiet := by
  rcases fails_cases forest with ⟨-, hdue⟩ | ⟨hfailed, hrest⟩
  · exact absurd hdue hquiet
  · exact ⟨forest.fails.2, Prod.ext hfailed rfl, fun hdue => hquiet (hrest.mem hdue)⟩

theorem allocate (hquiet : forest.Quiet) (value : Json) :
    ∃ handle created, forest.allocate value = (some handle, created) ∧ created.Quiet := by
  obtain ⟨asked, hasked, hlater⟩ := hquiet.fails
  unfold Forest.allocate
  rw [hasked]
  exact ⟨_, _, rfl, hlater⟩

theorem release (hquiet : forest.Quiet) {handle : Option Nat} {freed : Forest}
    (hfreed : forest.release handle = some freed) : freed.Quiet := by
  unfold Forest.release at hfreed
  split at hfreed
  · obtain rfl := Option.some.inj hfreed
    exact hquiet
  · split at hfreed
    · cases hfreed
    · obtain rfl := Option.some.inj hfreed
      exact hquiet

theorem addChild (hquiet : forest.Quiet) {target child : Nat} {path : List Bytes} {key : Bytes}
    {added : Bool} {later : Forest}
    (hadded : forest.addChild objects target path key child = some (added, later)) :
    added = true ∧ later.Quiet := by
  obtain ⟨asked, hasked, hlater⟩ := hquiet.fails
  unfold Forest.addChild at hadded
  rw [hasked] at hadded
  split at hadded
  · cases hadded
    exact ⟨rfl, hlater⟩
  · cases hadded

/-- The objects around the value. -/
theorem wrapValue {keys : List Bytes} {pending : Nat} (hquiet : forest.Quiet)
    (hstopped : Documents.wrapValue objects keys pending forest ≠ none) :
    ∃ outer made, Documents.wrapValue objects keys pending forest = some (some outer, made) ∧
      made.Quiet := by
  induction keys generalizing pending forest with
  | nil => exact ⟨pending, forest, rfl, hquiet⟩
  | cons key rest ih =>
      obtain ⟨object, created, hcreated, hcalm⟩ := hquiet.allocate (.object [])
      unfold Documents.wrapValue at hstopped ⊢
      rw [hcreated] at hstopped ⊢
      dsimp only at hstopped ⊢
      cases hadded : created.addChild objects object [] key pending with
      | none =>
          rw [hadded] at hstopped
          exact absurd rfl hstopped
      | some answer =>
          obtain ⟨added, later⟩ := answer
          obtain ⟨rfl, hlater⟩ := hcalm.addChild hadded
          rw [hadded] at hstopped
          exact ih hlater hstopped

end Forest.Quiet

end Calls

section Assignments

variable (objects : JsonObjects) {trees : Nat → Option Json} {forest : Forest} {holders : Holders}
  {place : Place} {path : List Bytes} {taking : Taking} {outcome : Assigned}

theorem setRoot_calm {source : JsonRef} (hquiet : forest.Quiet)
    (houtcome : setRoot source taking holders forest = some outcome) : outcome.Calm := by
  unfold setRoot at houtcome
  cases taking with
  | root =>
      cases houtcome
      exact ⟨rfl, hquiet⟩
  | other =>
      obtain ⟨freed, hfreed, rfl⟩ := Option.map_eq_some_iff.mp houtcome
      exact ⟨rfl, hquiet.release hfreed⟩
  | copy =>
      dsimp only at houtcome
      split at houtcome
      · cases houtcome
      · rename_i value hvalue
        obtain ⟨pending, created, hcreated, hcalm⟩ := hquiet.allocate value
        rw [hcreated] at houtcome
        obtain ⟨freed, hfreed, rfl⟩ := Option.map_eq_some_iff.mp houtcome
        exact ⟨rfl, hcalm.release hfreed⟩

theorem emptied_calm {copied : Bool} (hquiet : forest.Quiet)
    (houtcome : (if taking = .other then
        (if copied then forest.release holders.taken else some forest).map fun freed =>
          (⟨.ok, none, { holders with taken := none }, freed⟩ : Assigned)
      else some ⟨.ok, none, holders, forest⟩) = some outcome) : outcome.Calm := by
  split at houtcome
  · obtain ⟨freed, hfreed, rfl⟩ := Option.map_eq_some_iff.mp houtcome
    split at hfreed
    · exact ⟨rfl, hquiet.release hfreed⟩
    · obtain rfl := Option.some.inj hfreed
      exact ⟨rfl, hquiet⟩
  · cases houtcome
    exact ⟨rfl, hquiet⟩

theorem adopt_calm {copied : Bool} {pending : Nat} (hquiet : forest.Quiet)
    (houtcome : adopt objects place path taking copied pending holders forest = some outcome) :
    outcome.Calm := by
  unfold adopt at houtcome
  dsimp only at houtcome
  split at houtcome
  · obtain ⟨freed, hfreed, hemptied⟩ := Option.bind_eq_some_iff.mp houtcome
    exact emptied_calm (hquiet.release hfreed) hemptied
  · split at houtcome
    · rename_i root key rest hroot hkey
      cases hadded : forest.addChild objects root (path.take place.missing) key pending with
      | none =>
          rw [hadded] at houtcome
          cases houtcome
      | some answer =>
          obtain ⟨added, later⟩ := answer
          obtain ⟨rfl, hlater⟩ := hquiet.addChild hadded
          rw [hadded] at houtcome
          exact emptied_calm hlater houtcome
    · cases houtcome

theorem setInside_calm {source : JsonRef} (hquiet : forest.Quiet)
    (houtcome : setInside objects place path source taking holders forest = some outcome) :
    outcome.Calm := by
  have hwrap : ∀ {copied keys pending} {forest : Forest}, forest.Quiet →
      Documents.wrapValue objects keys pending forest ≠ none → ∃ outer made,
        Documents.wrapValue objects keys pending forest = some (some outer, made) ∧
          (adopt objects place path taking copied outer holders made = some outcome →
            outcome.Calm) := by
    intro copied keys pending forest hquiet hstopped
    obtain ⟨outer, made, hmade, hcalm⟩ := hquiet.wrapValue hstopped
    exact ⟨outer, made, hmade, adopt_calm objects hcalm⟩
  unfold setInside at houtcome
  dsimp only at houtcome
  generalize (path.drop (place.missing + if place.replaceRoot then 0 else 1)).reverse = inner
    at houtcome
  split at houtcome
  · split at houtcome
    · cases houtcome
    · rename_i value hvalue
      obtain ⟨pending, created, hcreated, hcalm⟩ := hquiet.allocate value
      rw [hcreated] at houtcome
      dsimp only at houtcome
      obtain ⟨outer, made, hmade, hadopt⟩ := hwrap hcalm fun hnone => by
        rw [hnone] at houtcome
        cases houtcome
      rw [hmade] at houtcome
      exact hadopt houtcome
  · split at houtcome
    · cases houtcome
    · rename_i pending htaken
      obtain ⟨outer, made, hmade, hadopt⟩ := hwrap hquiet fun hnone => by
        rw [hnone] at houtcome
        cases houtcome
      rw [hmade] at houtcome
      exact hadopt houtcome

/-- The parents are created. -/
theorem createParents_calm {parents : List Bytes} {key : Bytes} {base : Json} {root : Nat}
    (depth : Nat) (howns : Owns trees forest) (hroot : trees root = some base)
    (hneeds : NeedsParents parents key base) (hlength : (parents ++ [key]).length ≤ 128)
    (hquiet : forest.Quiet)
    (houtcome : createParents (setValue objects (depth + 1)) ((parents ++ [key]).map some)
      (some root) forest = some outcome) : outcome.Calm := by
  unfold createParents at houtcome
  rw [List.length_map, List.length_append, List.length_singleton] at houtcome
  split at houtcome
  · rename_i hmany
    rcases hneeds with ⟨rfl, -⟩ | ⟨missing, hlocate, hmissing⟩
    · exact absurd hmany (Nat.lt_irrefl 1)
    have hparents : parents ≠ [] := List.ne_nil_of_length_pos (Nat.zero_lt_of_lt hmissing)
    obtain ⟨empty, created, hcreated, hcalm⟩ := hquiet.allocate (.object [])
    rcases howns.allocate (.object []) with ⟨asked, hasked, -⟩ | ⟨other, made, hmade, hempty, hownsMade⟩
    · rw [hcreated] at hasked
      cases hasked
    rw [hcreated] at hmade
    cases hmade
    rw [hcreated] at houtcome
    obtain ⟨inner, hinner, hreleased⟩ := Option.bind_eq_some_iff.mp houtcome
    obtain ⟨freed, hfreed, rfl⟩ := Option.map_eq_some_iff.mp hreleased
    have hne : root ≠ empty := by
      rintro rfl
      rw [hroot] at hempty
      cases hempty
    have hplace : placeOf ((some root).bind created.trees) parents = .ok ⟨false, missing⟩ := by
      rw [Option.bind_some, hownsMade.holds, Function.update_of_ne hne, hroot]
      exact placeOf_located hparents (JsonObjects.locate_parents hlocate hmissing)
    have hvalid : validPath (parents.map some) = some parents := by
      rw [List.length_append] at hlength
      exact validPath_eq_some.mpr ⟨rfl, Nat.le_trans (Nat.le_add_right _ _) hlength⟩
    rw [List.map_append, List.map_cons, List.map_nil, List.dropLast_concat,
      setValue_inside objects depth ⟨empty, []⟩ hvalid hparents hplace
        (.inl fun hsame => hne (Option.some.inj hsame))] at hinner
    obtain ⟨hcode, hlater⟩ := setInside_calm objects hcalm hinner
    exact ⟨hcode, hlater.release hfreed⟩
  · cases houtcome
    exact ⟨rfl, hquiet⟩

/-- The document is assigned to a place in itself. -/
theorem setSelf_calm {parents : List Bytes} {key : Bytes} {base tree : Json} (depth : Nat)
    (howns : Owns trees forest) (hbase : base = if place.replaceRoot then .object [] else tree)
    (hneeds : NeedsParents parents key base) (hlength : (parents ++ [key]).length ≤ 128)
    (hquiet : forest.Quiet)
    (houtcome : setSelf (setValue objects (depth + 1)) place ((parents ++ [key]).map some) tree
      holders forest = some outcome) : outcome.Calm := by
  unfold setSelf at houtcome
  rw [← hbase] at houtcome
  obtain ⟨provisional, created, hcreated, hcalm⟩ := hquiet.allocate base
  rcases howns.allocate base with ⟨asked, hasked, -⟩ | ⟨other, made, hmade, -, hownsMade⟩
  · rw [hcreated] at hasked
    cases hasked
  rw [hcreated] at hmade
  cases hmade
  rw [hcreated] at houtcome
  dsimp only at houtcome
  obtain ⟨inner, hinner, hparents⟩ := createParents_settled objects depth hownsMade
    (Function.update_self _ _ _) hneeds hlength
  obtain ⟨hcode, hlater⟩ := createParents_calm objects depth hownsMade
    (Function.update_self _ _ _) hneeds hlength hcalm hinner
  rcases hparents with ⟨hfailed, -⟩ | ⟨-, root, hroot, -, hownsParents⟩
  · exact absurd hcode hfailed
  have hpath : parents ++ [key] ≠ [] := List.concat_ne_nil _ _
  have hplace : placeOf ((some root).bind inner.forest.trees) (parents ++ [key]) =
      .ok ⟨false, parents.length⟩ := by
    rw [Option.bind_some, hownsParents.holds, Function.update_self]
    exact placeOf_located hpath (JsonObjects.locate_eq (hneeds.created objects) key)
  rw [hinner, Option.bind_some, if_pos hcode, hroot, Option.map_some,
    setValue_inside objects depth ⟨root, []⟩ (validPath_eq_some.mpr ⟨rfl, hlength⟩) hpath hplace
      (.inr ⟨rfl, by simp⟩)] at houtcome
  obtain ⟨last, hlast, hpublished⟩ := Option.bind_eq_some_iff.mp houtcome
  obtain ⟨hlastCode, hlastQuiet⟩ := setInside_calm objects hlater hlast
  rw [if_pos hlastCode] at hpublished
  obtain ⟨freed, hfreed, rfl⟩ := Option.map_eq_some_iff.mp hpublished
  exact ⟨rfl, hlastQuiet.release hfreed⟩

/-- `set_value` with a path that the document admits. -/
theorem setValue_calm {keys : List (Option Bytes)} {source : JsonRef} {value : Json}
    (howns : Owns trees forest) (hsourced : Sourced trees holders taking source value)
    (hvalid : validPath keys = some path)
    (hplace : path = [] ∨ ∃ place, placeOf (holders.root.bind trees) path = .ok place)
    (hquiet : forest.Quiet)
    (houtcome : setValue objects 2 keys (some source) taking holders forest = some outcome) :
    outcome.Calm := by
  obtain ⟨hkeys, hlength⟩ := validPath_eq_some.mp hvalid
  unfold setValue at houtcome
  rw [hvalid] at houtcome
  dsimp only at houtcome
  by_cases hpath : path = []
  · rw [if_pos hpath] at houtcome
    exact setRoot_calm hquiet houtcome
  obtain ⟨place, hplace⟩ := hplace.resolve_left hpath
  rw [if_neg hpath, howns.holds, hplace] at houtcome
  dsimp only at houtcome
  split at houtcome
  · rename_i hself
    obtain ⟨hroot, hempty, hmissing⟩ := hself
    have htree : trees source.tree = some value := by
      have hfound := hsourced.found
      rwa [hempty, Json.findPath_nil] at hfound
    rw [htree, hkeys] at houtcome
    rw [hroot, Option.bind_some, htree] at hplace
    obtain ⟨parents, key, rfl⟩ : ∃ parents key, path = parents ++ [key] :=
      ⟨path.dropLast, path.getLast hpath, (List.dropLast_append_getLast hpath).symm⟩
    exact setSelf_calm objects 0 howns rfl (needsParents hplace hmissing rfl) hlength hquiet
      houtcome
  · exact setInside_calm objects hquiet houtcome

/-- `set_value` without a source or with keys that are no path. -/
theorem setValue_invalid {keys : List (Option Bytes)} {source : Option JsonRef}
    (hinvalid : source = none ∨ validPath keys = none) :
    setValue objects 2 keys source taking holders forest =
      some ⟨.einval, some "Invalid WorkflowValue path or source", holders, forest⟩ := by
  unfold setValue
  rcases hinvalid with rfl | hvalid
  · rfl
  · rw [hvalid]
    cases source <;> rfl

/-- `set_value` with a path that the document does not admit. -/
theorem setValue_misplaced {keys : List (Option Bytes)} {source : JsonRef} {text : String}
    (hvalid : validPath keys = some path) (hpath : path ≠ [])
    (hplace : placeOf (holders.root.bind forest.trees) path = .error text) :
    setValue objects 2 keys (some source) taking holders forest =
      some ⟨.einval, some text, holders, forest⟩ := by
  unfold setValue
  rw [hvalid]
  dsimp only
  rw [if_neg hpath, hplace]

end Assignments

end Praktor.Documents
