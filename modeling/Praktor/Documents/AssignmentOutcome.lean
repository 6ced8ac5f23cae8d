/-
# What an assignment comes to

An assignment of the document to a place in itself creates the missing parents on a document of
its own first.  In every case the path leads to the value that was assigned, every path apart of
it leads to what it led to before, and a call that fails leaves everything as it was.
-/

import Praktor.Documents.AssignmentSafety

namespace Praktor.Documents

open Praktor.Data

section Outcome

variable (objects : JsonObjects) {trees : Nat → Option Json} {forest : Forest} {holders : Holders}
  {place : Place} {path : List Bytes} {taking : Taking} {value : Json}

/-! ## The document itself -/

/-- The source leads to a value, and it is what the caller hands over where it hands one over. -/
structure Sourced (trees : Nat → Option Json) (holders : Holders) (taking : Taking)
    (source : JsonRef) (value : Json) : Prop where
  found : Json.findPath (trees source.tree) source.path = some value
  handed : taking = .other → holders.taken = some source.tree ∧ source.path = []
  itself : taking = .root → holders.root = some source.tree ∧ source.path = []

theorem setRoot_settled (hheld : Held trees holders) (howns : Owns trees forest)
    {source : JsonRef} (hsourced : Sourced trees holders taking source value) :
    ∃ outcome, setRoot source taking holders forest = some outcome ∧
      Settled trees holders taking value outcome := by
  unfold setRoot
  cases taking with
  | root =>
      obtain ⟨hroot, hempty⟩ := hsourced.itself rfl
      have hfound := hsourced.found
      rw [hempty, Json.findPath_nil] at hfound
      obtain ⟨root, taken⟩ := holders
      obtain rfl : root = some source.tree := hroot
      refine ⟨_, rfl, .assigned (.inr (.inl rfl)) rfl ?_⟩
      have hsame : Function.update (cleared none (cleared (some source.tree) trees)) source.tree
          (some value) = trees := by
        rw [cleared_some, ← hfound]
        exact (Function.update_idem ..).trans (Function.update_eq_self ..)
      exact Eq.mpr (congrArg (Owns · forest) hsame) howns
  | other =>
      obtain ⟨htaken, hempty⟩ := hsourced.handed rfl
      have hfound := hsourced.found
      rw [hempty, Json.findPath_nil] at hfound
      obtain ⟨freed, hfreed, hownsFreed⟩ := howns.clear hheld.root
      dsimp only
      rw [hfreed, htaken]
      refine ⟨_, rfl, .assigned (.inr (.inr htaken)) rfl ?_⟩
      have hne : holders.root ≠ some source.tree := fun hroot =>
        hheld.apart source.tree hroot htaken
      rw [if_pos rfl, htaken, cleared_some, Function.update_idem, ← hfound,
        ← @cleared_of_ne trees _ _ hne, Function.update_eq_self]
      exact hownsFreed
  | copy =>
      dsimp only
      rw [howns.holds, hsourced.found]
      dsimp only
      rcases howns.allocate value with ⟨asked, hasked, hownsAsked⟩ |
        ⟨pending, created, hcreated, hpending, hownsCreated⟩
      · rw [hasked]
        exact ⟨_, rfl, .refused (by decide) hownsAsked⟩
      · rw [hcreated]
        have hne : holders.root ≠ some pending := fun hroot => hheld.root pending hroot hpending
        have hlive : ∀ held, holders.root = some held →
            Function.update trees pending (some value) held ≠ none := by
          intro held hroot
          have hother : held ≠ pending := fun heq => hne (hroot.trans (congrArg some heq))
          rw [Function.update_of_ne hother]
          exact hheld.root held hroot
        obtain ⟨freed, hfreed, hownsFreed⟩ := hownsCreated.clear hlive
        rw [cleared_update hne] at hownsFreed
        dsimp only
        rw [hfreed]
        exact ⟨_, rfl, .assigned (.inl hpending) rfl hownsFreed⟩

/-! ## The document in itself -/

theorem mapM_id_eq_some {keys : List (Option Bytes)} :
    keys.mapM id = some path ↔ keys = path.map some := by
  induction keys generalizing path with
  | nil =>
      cases path with
      | nil => exact ⟨fun _ => rfl, fun _ => rfl⟩
      | cons key rest => exact ⟨nofun, nofun⟩
  | cons key rest ih =>
      rw [List.mapM_cons]
      cases key with
      | none =>
          cases path with
          | nil => exact ⟨nofun, nofun⟩
          | cons first others => simp
      | some key =>
          cases path with
          | nil => cases rest.mapM id <;> simp
          | cons first others =>
              rw [List.map_cons, List.cons.injEq, Option.some.injEq, ← ih]
              cases rest.mapM id <;> simp

theorem validPath_eq_some {keys : List (Option Bytes)} :
    validPath keys = some path ↔ keys = path.map some ∧ path.length ≤ 128 := by
  unfold validPath
  split
  · rename_i hlong
    refine ⟨nofun, fun hkeys => ?_⟩
    rw [hkeys.1, List.length_map] at hlong
    exact absurd hkeys.2 (Nat.not_le.mpr hlong)
  · rename_i hlength
    rw [mapM_id_eq_some]
    refine ⟨fun hkeys => ⟨hkeys, ?_⟩, fun hkeys => hkeys.1⟩
    rw [hkeys, List.length_map] at hlength
    exact Nat.not_lt.mp hlength

/-- Where the value is not the document itself a call does not call itself again. -/
theorem setValue_inside {keys : List (Option Bytes)} (depth : Nat) (source : JsonRef)
    (hvalid : validPath keys = some path) (hpath : path ≠ [])
    (hplace : placeOf (holders.root.bind forest.trees) path = .ok place)
    (hother : holders.root ≠ some source.tree ∨ place.replaceRoot = false ∧
      path.length ≤ place.missing + 1) :
    setValue objects (depth + 1) keys (some source) taking holders forest =
      setInside objects place path source taking holders forest := by
  unfold setValue
  rw [hvalid]
  dsimp only
  rw [if_neg hpath, hplace]
  dsimp only
  rw [if_neg]
  rintro ⟨hroot, -, hmissing⟩
  rcases hother with hother | ⟨hinside, hlength⟩
  · exact hother hroot
  · rcases hmissing with hreplace | hmissing
    · rw [hinside] at hreplace
      cases hreplace
    · omega

/-- What the walk to the parents finds in the tree they are created in. -/
def NeedsParents (parents : List Bytes) (key : Bytes) (base : Json) : Prop :=
  (parents = [] ∧ base = .object []) ∨
    ∃ missing, JsonObjects.locate base (parents ++ [key]) = .ok missing ∧ missing < parents.length

theorem locate_object {tree : Json} {missing : Nat} (hpath : path ≠ [])
    (hlocate : JsonObjects.locate tree path = .ok missing) : tree.isNull = false := by
  cases path with
  | nil => exact absurd rfl hpath
  | cons key rest =>
      cases tree with
      | null => cases hlocate
      | _ => rfl

theorem placeOf_located {tree : Json} {missing : Nat} (hpath : path ≠ [])
    (hlocate : JsonObjects.locate tree path = .ok missing) :
    placeOf (some tree) path = .ok ⟨false, missing⟩ := by
  unfold placeOf
  dsimp only
  rw [locate_object hpath hlocate, if_neg Bool.false_ne_true, hlocate]
  rfl

/-- Once they are created the parents are there. -/
theorem NeedsParents.created {parents : List Bytes} {key : Bytes} {base : Json}
    (hneeds : NeedsParents parents key base) :
    Json.findPath (some (objects.withParents parents base)) parents = some (.object []) := by
  rcases hneeds with ⟨rfl, rfl⟩ | ⟨missing, hlocate, hmissing⟩
  · rfl
  · rw [← JsonObjects.attach_parents hlocate hmissing]
    refine JsonObjects.findPath_attach (JsonObjects.locate_located ?_
      (JsonObjects.locate_parents hlocate hmissing))
    exact List.ne_nil_of_length_pos (Nat.zero_lt_of_lt hmissing)

/-- The parents are created in a tree, or the tree stays as it is. -/
theorem createParents_settled {parents : List Bytes} {key : Bytes} {base : Json} {root : Nat}
    (depth : Nat) (howns : Owns trees forest) (hroot : trees root = some base)
    (hneeds : NeedsParents parents key base) (hlength : (parents ++ [key]).length ≤ 128) :
    ∃ outcome, createParents (setValue objects (depth + 1)) ((parents ++ [key]).map some)
        (some root) forest = some outcome ∧
      (outcome.code ≠ .ok ∧ outcome.holders.root = some root ∧ Owns trees outcome.forest ∨
        outcome.code = .ok ∧ ∃ made, outcome.holders.root = some made ∧
          (made = root ∨ trees made = none) ∧
          Owns (Function.update (Function.update trees root none) made
            (some (objects.withParents parents base))) outcome.forest) := by
  unfold createParents
  rw [List.length_map, List.length_append, List.length_singleton]
  split
  · rename_i hmany
    rcases hneeds with ⟨rfl, -⟩ | ⟨missing, hlocate, hmissing⟩
    · exact absurd hmany (Nat.lt_irrefl 1)
    have hparents : parents ≠ [] := List.ne_nil_of_length_pos (Nat.zero_lt_of_lt hmissing)
    rcases howns.allocate (.object []) with ⟨asked, hasked, hownsAsked⟩ |
      ⟨empty, created, hcreated, hempty, hownsCreated⟩
    · rw [hasked]
      exact ⟨_, rfl, .inl ⟨(by decide : Salts.enomem ≠ .ok), rfl, hownsAsked⟩⟩
    rw [hcreated]
    dsimp only
    have hne : root ≠ empty := by
      rintro rfl
      rw [hroot] at hempty
      cases hempty
    have hrooted : Function.update trees empty (some (.object [])) root = some base := by
      rw [Function.update_of_ne hne, hroot]
    have hlocateParents := JsonObjects.locate_parents hlocate hmissing
    have hplace : placeOf ((some root).bind created.trees) parents = .ok ⟨false, missing⟩ := by
      rw [Option.bind_some, hownsCreated.holds, hrooted]
      exact placeOf_located hparents hlocateParents
    have hheld : Held (Function.update trees empty (some (.object []))) ⟨some root, some empty⟩ := by
      refine ⟨fun held hsame => ?_, fun held hsame => ?_, fun held hsame htaken => ?_⟩
      · obtain rfl := Option.some.inj hsame
        rw [hrooted]
        exact nofun
      · obtain rfl := Option.some.inj hsame
        rw [Function.update_self]
        exact nofun
      · exact hne ((Option.some.inj hsame).trans (Option.some.inj htaken).symm)
    have hvalid : validPath (parents.map some) = some parents := by
      rw [validPath_eq_some]
      rw [List.length_append] at hlength
      exact ⟨rfl, Nat.le_trans (Nat.le_add_right _ _) hlength⟩
    rw [List.map_append, List.map_cons, List.map_nil, List.dropLast_concat,
      setValue_inside objects depth ⟨empty, []⟩ hvalid hparents hplace
        (.inl fun hsame => hne (Option.some.inj hsame))]
    rw [hownsCreated.holds] at hplace
    obtain ⟨outcome, houtcome, hsettled⟩ := setInside_settled objects .other
      ⟨empty, []⟩ hheld hownsCreated (Function.update_self _ _ _) (fun _ => ⟨rfl, rfl⟩) hparents hplace
    rw [houtcome, Option.bind_some]
    have htree : placed objects ⟨false, missing⟩ ((some root).bind
        (Function.update trees empty (some (.object [])))) parents (.object []) =
          objects.withParents parents base := by
      rw [Option.bind_some, hrooted, ← JsonObjects.attach_parents hlocate hmissing]
      rfl
    rw [htree] at hsettled
    cases hsettled with
    | refused hcode hownsRefused =>
        obtain ⟨freed, hfreed, hownsFreed⟩ := hownsRefused.release (Function.update_self _ _ _)
        rw [update_none hempty] at hownsFreed
        rw [hfreed]
        exact ⟨_, rfl, .inl ⟨hcode, rfl, hownsFreed⟩⟩
    | assigned hnew htaken hownsMade =>
        rename_i made taken forest'
        obtain rfl : taken = none := htaken
        have hsame : cleared (if Taking.other = .other then some empty else none)
            (cleared (some root) (Function.update trees empty (some (.object [])))) =
              Function.update trees root none := by
          rw [if_pos rfl, cleared_some, cleared_some, Function.update_comm hne,
            update_none hempty]
        refine ⟨_, rfl, .inr ⟨rfl, made, rfl, ?_, ?_⟩⟩
        · rcases hnew with hnew | hnew | hnew
          · by_cases hmade : made = empty
            · exact .inr (hmade ▸ hempty)
            · rw [Function.update_of_ne hmade] at hnew
              exact .inr hnew
          · exact .inl (Option.some.inj hnew).symm
          · exact .inr ((Option.some.inj hnew) ▸ hempty)
        · rw [← hsame]
          exact hownsMade
  · rename_i hone
    have hnil : parents = [] := List.length_eq_zero_iff.mp (by omega)
    subst hnil
    refine ⟨_, rfl, .inr ⟨rfl, root, rfl, .inl rfl, ?_⟩⟩
    rw [Function.update_idem]
    rw [show objects.withParents [] base = base from rfl, ← hroot, Function.update_eq_self]
    exact howns

/-- The document is assigned to a place in itself, or nothing is changed. -/
theorem setSelf_settled {parents : List Bytes} {key : Bytes} {base tree : Json} (depth : Nat)
    (hheld : Held trees holders) (howns : Owns trees forest) (hother : taking ≠ .other)
    (hbase : base = if place.replaceRoot then .object [] else tree)
    (hneeds : NeedsParents parents key base) (hlength : (parents ++ [key]).length ≤ 128) :
    ∃ outcome, setSelf (setValue objects (depth + 1)) place ((parents ++ [key]).map some) tree
        holders forest = some outcome ∧
      Settled trees holders taking (objects.attach (objects.withParents parents base)
        (parents ++ [key]) parents.length (objects.withParents parents base)) outcome := by
  unfold setSelf
  rw [← hbase]
  rcases howns.allocate base with ⟨asked, hasked, hownsAsked⟩ |
    ⟨provisional, created, hcreated, hprovisional, hownsCreated⟩
  · rw [hasked]
    exact ⟨_, rfl, .refused (by decide) hownsAsked⟩
  rw [hcreated]
  dsimp only
  obtain ⟨outcome, houtcome, hparents⟩ := createParents_settled objects depth
    hownsCreated (Function.update_self _ _ _) hneeds hlength
  rw [houtcome, Option.bind_some]
  rcases hparents with ⟨hcode, hroot, hownsParents⟩ | ⟨hcode, made, hroot, hmade, hownsParents⟩
  · rw [if_neg hcode, Option.bind_some, if_neg hcode, hroot]
    obtain ⟨freed, hfreed, hownsFreed⟩ := hownsParents.release (Function.update_self _ _ _)
    rw [update_none hprovisional] at hownsFreed
    rw [hfreed]
    exact ⟨_, rfl, .refused hcode hownsFreed⟩
  · rw [if_pos hcode, hroot, Option.map_some]
    rw [update_none hprovisional] at hownsParents
    have hfree : trees made = none := by
      rcases hmade with rfl | hmade
      · exact hprovisional
      · by_cases hsame : made = provisional
        · rw [hsame]
          exact hprovisional
        · rwa [Function.update_of_ne hsame] at hmade
    generalize hwhole : objects.withParents parents base = whole at hownsParents ⊢
    have hfound : Json.findPath (some whole) parents = some (.object []) := by
      rw [← hwhole]
      exact hneeds.created objects
    have hpath : parents ++ [key] ≠ [] := List.concat_ne_nil _ _
    have hlocate := JsonObjects.locate_eq hfound key
    have hplace : placeOf ((some made).bind
        (Function.update trees made (some whole))) (parents ++ [key]) =
          .ok ⟨false, parents.length⟩ := by
      rw [Option.bind_some, Function.update_self]
      exact placeOf_located hpath hlocate
    have hvalid : validPath ((parents ++ [key]).map some) = some (parents ++ [key]) :=
      validPath_eq_some.mpr ⟨rfl, hlength⟩
    have hheldMade : Held (Function.update trees made (some whole)) ⟨some made, none⟩ := by
      refine ⟨fun held hsame => ?_, fun held hsame => ?_, fun held _ => ?_⟩
      · obtain rfl := Option.some.inj hsame
        rw [Function.update_self]
        exact nofun
      · cases hsame
      · exact nofun
    have hplaceForest := hplace
    rw [← hownsParents.holds] at hplaceForest
    rw [setValue_inside objects depth ⟨made, []⟩ hvalid hpath
      hplaceForest (.inr ⟨rfl, by simp⟩)]
    obtain ⟨last, hlast, hsettled⟩ := setInside_settled objects .copy
      ⟨made, []⟩ hheldMade hownsParents (Function.update_self _ _ _) nofun hpath hplace
    rw [hlast, Option.bind_some]
    have htree : placed objects ⟨false, parents.length⟩ ((some made).bind
        (Function.update trees made (some whole))) (parents ++ [key]) whole =
          objects.attach whole (parents ++ [key]) parents.length whole := by
      rw [Option.bind_some, Function.update_self]
      rfl
    rw [htree] at hsettled
    cases hsettled with
    | refused hcodeLast hownsLast =>
        rw [if_neg hcodeLast]
        obtain ⟨freed, hfreed, hownsFreed⟩ := hownsLast.release (Function.update_self _ _ _)
        rw [update_none hfree] at hownsFreed
        rw [hfreed]
        exact ⟨_, rfl, .refused hcodeLast hownsFreed⟩
    | assigned hnew htaken hownsLast =>
        rename_i root taken forest'
        rw [if_pos rfl]
        have hrootFree : trees root = none := by
          by_cases hsame : root = made
          · rw [hsame]
            exact hfree
          · rcases hnew with hnew | hnew | hnew
            · rwa [Function.update_of_ne hsame] at hnew
            · exact absurd (Option.some.inj hnew).symm hsame
            · cases hnew
        rw [if_neg (by decide), show ∀ trees, cleared none trees = trees from fun _ => rfl,
          cleared_some, update_none hfree] at hownsLast
        have hne : holders.root ≠ some root := fun hsame => hheld.root root hsame hrootFree
        have hlive : ∀ held, holders.root = some held → Function.update trees root
            (some (objects.attach whole (parents ++ [key]) parents.length whole)) held ≠ none := by
          intro held hsame
          have hapart : held ≠ root := fun heq => hne (hsame.trans (congrArg some heq))
          rw [Function.update_of_ne hapart]
          exact hheld.root held hsame
        obtain ⟨freed, hfreed, hownsFreed⟩ := hownsLast.clear hlive
        rw [cleared_update hne] at hownsFreed
        dsimp only
        rw [hfreed]
        refine ⟨_, rfl, .assigned (.inl hrootFree) (if_neg hother).symm ?_⟩
        rw [if_neg hother]
        exact hownsFreed

/-! ## Every call -/

/-- The document itself is the source. -/
def itself (source : JsonRef) (holders : Holders) : Bool :=
  decide (holders.root = some source.tree ∧ source.path = [])

/-- What the value is by the time it is assigned: a document that is put in itself has its missing
parents by then. -/
def assignedValue (objects : JsonObjects) (self : Bool) (path : List Bytes) (value : Json) : Json :=
  if self && !path.isEmpty then
    objects.withParents path.dropLast (if value.isNull then .object [] else value)
  else value

/-- The document with the value in its place. -/
def assignedTree (objects : JsonObjects) (self : Bool) (root : Option Json) (path : List Bytes)
    (value : Json) : Json :=
  if path = [] then value
  else if self then
    let whole := assignedValue objects true path value
    objects.attach whole path (path.length - 1) whole
  else
    match placeOf root path with
    | .error _ => value
    | .ok place => placed objects place root path value

theorem needsParents {parents : List Bytes} {key : Bytes} {tree base : Json}
    (hplace : placeOf (some tree) (parents ++ [key]) = .ok place)
    (hmissing : place.replaceRoot = true ∨ place.missing + 1 < (parents ++ [key]).length)
    (hbase : base = if place.replaceRoot then .object [] else tree) :
    NeedsParents parents key base := by
  rw [List.length_append, List.length_singleton] at hmissing
  rcases placeOf_ok (List.concat_ne_nil _ _) hplace with ⟨rfl, -⟩ | ⟨other, hother, hinside, hlocate, -⟩
  · rw [if_pos rfl] at hbase
    subst hbase
    cases parents with
    | nil => exact .inl ⟨rfl, rfl⟩
    | cons first rest =>
        refine .inr ⟨0, ?_, Nat.succ_pos _⟩
        rw [List.cons_append, JsonObjects.locate, if_neg (List.concat_ne_nil _ _)]
        rfl
  · obtain rfl := Option.some.inj hother
    rw [hinside, if_neg Bool.false_ne_true] at hbase
    rw [hinside] at hmissing
    subst hbase
    exact .inr ⟨_, hlocate, by have := hmissing.resolve_left Bool.false_ne_true; omega⟩

/-- Where the walk ends at the last key all the parents are there. -/
theorem parents_there {parents : List Bytes} {key : Bytes} {tree : Json}
    (hplace : placeOf (some tree) (parents ++ [key]) = .ok place)
    (hthere : ¬ (place.replaceRoot = true ∨
      place.missing + 1 < (parents ++ [key]).length)) :
    place.replaceRoot = false ∧ place.missing = parents.length ∧
      ∃ members, Json.findPath (some tree) parents = some (.object members) := by
  rw [not_or, Bool.not_eq_true, List.length_append, List.length_singleton] at hthere
  rcases placeOf_ok (List.concat_ne_nil _ _) hplace with ⟨rfl, -⟩ | ⟨other, hsame, -, -, hlocated⟩
  · exact absurd hthere.1 (by decide)
  obtain rfl := Option.some.inj hsame
  have hbound := hlocated.bound
  rw [List.length_append, List.length_singleton] at hbound
  have hmissing : place.missing = parents.length := by omega
  obtain ⟨members, hmembers, -⟩ := hlocated.parent
  rw [hmissing, List.take_left' rfl] at hmembers
  exact ⟨hthere.1, hmissing, members, hmembers⟩

theorem isNull_eq {tree : Json} (hpath : path ≠ [])
    (hplace : placeOf (some tree) path = .ok place) : tree.isNull = place.replaceRoot := by
  rcases placeOf_ok hpath hplace with ⟨rfl, hnull⟩ | ⟨other, hother, hinside, hlocate, -⟩
  · exact hnull tree rfl
  · obtain rfl := Option.some.inj hother
    rw [hinside]
    exact locate_object hpath hlocate

theorem assignedValue_itself {parents : List Bytes} {key : Bytes} :
    assignedValue objects true (parents ++ [key]) value =
      objects.withParents parents (if value.isNull then .object [] else value) := by
  unfold assignedValue
  rw [List.dropLast_concat]
  simp

theorem setValue_settled {keys : List (Option Bytes)} {source : JsonRef}
    (hheld : Held trees holders) (howns : Owns trees forest)
    (hsourced : Sourced trees holders taking source value) (hvalid : validPath keys = some path) :
    ∃ outcome, setValue objects 2 keys (some source) taking holders forest = some outcome ∧
      Settled trees holders taking
        (assignedTree objects (itself source holders) (holders.root.bind trees) path value)
        outcome := by
  obtain ⟨hkeys, hlength⟩ := validPath_eq_some.mp hvalid
  unfold setValue assignedTree
  rw [hvalid]
  dsimp only
  by_cases hpath : path = []
  · rw [if_pos hpath, if_pos hpath]
    exact setRoot_settled hheld howns hsourced
  rw [if_neg hpath, if_neg hpath, howns.holds]
  cases hplace : placeOf (holders.root.bind trees) path with
  | error text => exact ⟨_, rfl, .refused (by decide) howns⟩
  | ok place =>
      dsimp only
      by_cases hself : holders.root = some source.tree ∧ source.path = []
      · have hdecided : itself source holders = true := decide_eq_true hself
        have hother : taking ≠ .other := fun hhanded =>
          hheld.apart source.tree hself.1 (hsourced.handed hhanded).1
        have htree : trees source.tree = some value := by
          have hfound := hsourced.found
          rwa [hself.2, Json.findPath_nil] at hfound
        rw [hdecided, if_pos rfl]
        rw [hself.1, Option.bind_some, htree] at hplace
        obtain ⟨parents, key, rfl⟩ : ∃ parents key, path = parents ++ [key] :=
          ⟨path.dropLast, path.getLast hpath, (List.dropLast_append_getLast hpath).symm⟩
        have hnull := isNull_eq hpath hplace
        rw [assignedValue_itself, List.length_append, List.length_singleton, Nat.add_sub_cancel,
          hnull]
        split
        · rename_i hmissing
          rw [htree, hkeys]
          refine setSelf_settled objects 0 hheld howns hother rfl ?_ hlength
          refine needsParents hplace (hmissing.2.2.imp id fun hshort => ?_) rfl
          rw [List.length_append, List.length_singleton]
          exact hshort
        · rename_i hthere
          -- every parent is there, so creating them changes nothing
          have hshort : ¬ (place.replaceRoot = true ∨
              place.missing + 1 < (parents ++ [key]).length) := by
            rw [List.length_append, List.length_singleton]
            exact fun hmissing => hthere ⟨hself.1, hself.2, hmissing⟩
          obtain ⟨hinside, hmissing, members, hmembers⟩ := parents_there hplace hshort
          rw [hinside, if_neg Bool.false_ne_true, JsonObjects.withParents_of_found hmembers]
          have hplaceRoot : placeOf (holders.root.bind trees) (parents ++ [key]) = .ok place := by
            rw [hself.1, Option.bind_some, htree]
            exact hplace
          have hsettled := setInside_settled objects _ _ hheld howns hsourced.found
            hsourced.handed hpath hplaceRoot
          have hplaced : placed objects place (holders.root.bind trees) (parents ++ [key]) value =
              objects.attach value (parents ++ [key]) parents.length value := by
            unfold placed
            rw [hinside, if_neg Bool.false_ne_true, hself.1, Option.bind_some, htree, hmissing]
          rw [hplaced] at hsettled
          exact hsettled
      · have hdecided : itself source holders = false := decide_eq_false hself
        rw [hdecided, if_neg Bool.false_ne_true, if_neg fun hall => hself ⟨hall.1, hall.2.1⟩]
        exact setInside_settled objects _ _ hheld howns hsourced.found hsourced.handed hpath hplace

/-! ## What paths lead to -/

/-- The document that is put in itself has the object that the value is put under. -/
theorem parents_found {parents : List Bytes} {key : Bytes}
    (hplace : placeOf (some value) (parents ++ [key]) = .ok place) :
    ∃ members, Json.findPath (some (objects.withParents parents
      (if value.isNull then .object [] else value))) parents = some (.object members) := by
  have hnull : value.isNull = place.replaceRoot := isNull_eq (List.concat_ne_nil _ _) hplace
  rw [hnull]
  by_cases hmissing : place.replaceRoot = true ∨ place.missing + 1 < (parents ++ [key]).length
  · exact ⟨[], (needsParents hplace hmissing rfl).created objects⟩
  · obtain ⟨hinside, -, members, hmembers⟩ := parents_there hplace hmissing
    rw [hinside, if_neg Bool.false_ne_true, JsonObjects.withParents_of_found hmembers]
    exact ⟨members, hmembers⟩

/-- The path leads to what was assigned, and the paths apart of it to what they led to. -/
theorem findPath_assignedTree {root : Option Json} {self : Bool}
    (hself : self = true → root = some value)
    (hplace : path ≠ [] → ∃ place, placeOf root path = .ok place) :
    Json.findPath (some (assignedTree objects self root path value)) path =
        some (assignedValue objects self path value) ∧
      ∀ other, Apart path other →
        Json.findPath (some (assignedTree objects self root path value)) other =
          Json.findPath root other := by
  unfold assignedTree
  by_cases hpath : path = []
  · subst hpath
    rw [if_pos rfl]
    refine ⟨?_, fun other hapart => absurd hapart not_nil_apart⟩
    simp [assignedValue]
  obtain ⟨place, hplace⟩ := hplace hpath
  rw [if_neg hpath]
  cases self with
  | true =>
      obtain rfl := hself rfl
      obtain ⟨parents, key, rfl⟩ : ∃ parents key, path = parents ++ [key] :=
        ⟨path.dropLast, path.getLast hpath, (List.dropLast_append_getLast hpath).symm⟩
      obtain ⟨members, hmembers⟩ := parents_found objects hplace
      have hlocated := JsonObjects.locate_located hpath (JsonObjects.locate_eq hmembers key)
      rw [if_pos rfl, assignedValue_itself, List.length_append, List.length_singleton,
        Nat.add_sub_cancel]
      refine ⟨JsonObjects.findPath_attach hlocated, fun other hapart => ?_⟩
      have hbeyond : ¬ other <+: parents := fun hinitial =>
        hapart.2 (hinitial.trans (List.prefix_append _ _))
      rw [JsonObjects.findPath_attach_apart hlocated hapart,
        JsonObjects.findPath_withParents hbeyond]
      split
      · rename_i hnull
        cases other with
        | nil => exact absurd hapart not_apart_nil
        | cons first others =>
            cases value with
            | null => rfl
            | _ => cases hnull
      · rfl
  | false =>
      rw [if_neg Bool.false_ne_true, hplace]
      show _ = some value ∧ _
      dsimp only
      unfold placed
      rcases placeOf_ok hpath hplace with ⟨rfl, hnull⟩ | ⟨tree, rfl, hinside, -, hlocated⟩
      · rw [if_pos rfl]
        refine ⟨JsonObjects.findPath_nest path value, fun other hapart => ?_⟩
        rw [JsonObjects.findPath_nest_apart hapart]
        cases other with
        | nil => exact absurd hapart not_apart_nil
        | cons first others =>
            cases root with
            | none => rw [Json.findPath_none]
            | some tree =>
                have htree := hnull tree rfl
                cases tree with
                | null => exact (Json.findPath_none others).symm
                | _ => cases htree
      · rw [hinside, if_neg Bool.false_ne_true]
        exact ⟨JsonObjects.findPath_attach hlocated,
          fun other hapart => JsonObjects.findPath_attach_apart hlocated hapart⟩

/-! ## Exact and atomic assignment -/

/-- The document that a call leaves. -/
def Assigned.document (outcome : Assigned) : Option Json :=
  outcome.holders.root.bind outcome.forest.trees

/-- The value that a source leads to. -/
def Forest.valueOf (forest : Forest) (source : JsonRef) : Option Json :=
  Json.findPath (forest.trees source.tree) source.path

/-- What a call is given: a forest, variables that own their trees, and a source that is there. -/
structure Given (source : Option JsonRef) (taking : Taking) (holders : Holders)
    (forest : Forest) : Prop where
  fresh : ∀ handle, forest.next ≤ handle → forest.trees handle = none
  held : Held forest.trees holders
  sourced : ∀ ref, source = some ref → ∃ value, Sourced forest.trees holders taking ref value

/-- What a call leaves to the caller. -/
structure Exact (keys : List (Option Bytes)) (source : Option JsonRef) (taking : Taking)
    (holders : Holders) (forest : Forest) (outcome : Assigned) : Prop where
  /-- A call that fails changes no tree and no variable. -/
  refused : outcome.code ≠ .ok →
    outcome.holders = holders ∧ outcome.forest.trees = forest.trees
  invalid : source = none ∨ validPath keys = none → outcome.code = .einval
  /-- The path leads to the value of the source, and to the document with its parents where it is
  put in itself without them. -/
  found : outcome.code = .ok → ∃ path ref value expected,
    validPath keys = some path ∧ source = some ref ∧ forest.valueOf ref = some value ∧
    praktorValueFind outcome.document keys = (.ok, some expected) ∧
    (expected = value ∨
      itself ref holders = true ∧ path ≠ [] ∧
        (∀ members, Json.findPath (some value) path.dropLast ≠ some (.object members)) ∧
        expected = objects.withParents path.dropLast
          (if value.isNull then .object [] else value))
  /-- A path that is apart leads to what it led to. -/
  kept : outcome.code = .ok → ∀ others : List (Option Bytes),
    (∀ path other, validPath keys = some path → validPath others = some other →
      Apart path other) →
    praktorValueFind outcome.document others =
      praktorValueFind (holders.root.bind forest.trees) others
  /-- Only what is handed over from a variable of its own leaves its variable. -/
  emptied : outcome.code = .ok →
    outcome.holders.taken = if taking = .other then none else holders.taken
  /-- No other tree is touched, and none is left behind. -/
  alone : outcome.code = .ok → ∀ handle, outcome.holders.root ≠ some handle →
    outcome.forest.trees handle =
      if holders.root = some handle ∨ taking = .other ∧ holders.taken = some handle then none
      else forest.trees handle
  document : outcome.code = .ok → ∃ path ref value,
    validPath keys = some path ∧ source = some ref ∧ forest.valueOf ref = some value ∧
    outcome.document = some (assignedTree objects (itself ref holders)
      (holders.root.bind forest.trees) path value)

/-- A document that has the parents stays as it is. -/
theorem assignedValue_cases (self : Bool) : assignedValue objects self path value = value ∨
    self = true ∧ path ≠ [] ∧
      (∀ members, Json.findPath (some value) path.dropLast ≠ some (.object members)) ∧
      assignedValue objects self path value =
        objects.withParents path.dropLast (if value.isNull then .object [] else value) := by
  unfold assignedValue
  cases self with
  | false => exact .inl rfl
  | true =>
      by_cases hpath : path = []
      · subst hpath
        exact .inl rfl
      have hall : (true && !path.isEmpty) = true := by simpa using hpath
      rw [if_pos hall]
      by_cases hfound : ∃ members, Json.findPath (some value) path.dropLast =
          some (.object members)
      · obtain ⟨members, hmembers⟩ := hfound
        have hnull : value.isNull = false := by
          cases value with
          | null =>
              revert hmembers
              cases path.dropLast with
              | nil => exact nofun
              | cons first rest =>
                  rw [Json.findPath_cons, Option.bind_some]
                  exact fun hmembers => nomatch (Json.findPath_none rest).symm.trans hmembers
          | _ => rfl
        rw [hnull, if_neg Bool.false_ne_true]
        exact .inl (JsonObjects.withParents_of_found hmembers)
      · exact .inr ⟨rfl, hpath, fun members hmembers => hfound ⟨members, hmembers⟩, rfl⟩

theorem praktorValueFind_congr {first second : Option Json} {keys : List (Option Bytes)}
    (hsame : ∀ path, validPath keys = some path →
      Json.findPath first path = Json.findPath second path) :
    praktorValueFind first keys = praktorValueFind second keys := by
  unfold praktorValueFind
  cases hvalid : validPath keys with
  | none => rfl
  | some path =>
      dsimp only
      rw [hsame path hvalid]

theorem cleared_apply (handle : Option Nat) (other : Nat) :
    cleared handle trees other = if handle = some other then none else trees other := by
  split
  · rename_i hsame
    subst hsame
    exact Function.update_self ..
  · rename_i hne
    exact cleared_of_ne hne

/-- Every call is exact. -/
theorem setValue_exact (keys : List (Option Bytes)) {source : Option JsonRef}
    (hgiven : Given source taking holders forest) :
    ∃ outcome, setValue objects 2 keys source taking holders forest = some outcome ∧
      Exact objects keys source taking holders forest outcome := by
  have hrefused : ∀ error : Option String, source = none ∨ validPath keys = none →
      Exact objects keys source taking holders forest ⟨.einval, error, holders, forest⟩ :=
    fun _ _ => ⟨fun _ => ⟨rfl, rfl⟩, fun _ => rfl, nofun, nofun, nofun, nofun, nofun⟩
  cases source with
  | none => exact ⟨_, rfl, hrefused _ (.inl rfl)⟩
  | some ref =>
  cases hvalid : validPath keys with
  | none =>
      unfold setValue
      rw [hvalid]
      exact ⟨_, rfl, hrefused _ (.inr hvalid)⟩
  | some path =>
      obtain ⟨value, hsourced⟩ := hgiven.sourced ref rfl
      obtain ⟨outcome, houtcome, hsettled⟩ := setValue_settled objects hgiven.held
        ⟨rfl, hgiven.fresh⟩ hsourced hvalid
      refine ⟨outcome, houtcome, ?_⟩
      have hinvalid : ¬ (some ref = none ∨ validPath keys = none) := by
        rw [hvalid]
        exact fun hnone => hnone.elim nofun nofun
      have hplace : outcome.code = .ok → path ≠ [] →
          ∃ place, placeOf (holders.root.bind forest.trees) path = .ok place := by
        intro hcode hpath
        cases hplace : placeOf (holders.root.bind forest.trees) path with
        | ok place => exact ⟨place, rfl⟩
        | error text =>
            unfold setValue at houtcome
            rw [hvalid] at houtcome
            dsimp only at houtcome
            rw [if_neg hpath, hplace] at houtcome
            cases houtcome
            cases hcode
      cases hsettled with
      | refused hcode howns =>
          exact ⟨fun _ => ⟨rfl, howns.holds⟩, fun hnone => absurd hnone hinvalid,
            fun hok => absurd hok hcode, fun hok => absurd hok hcode, fun hok => absurd hok hcode,
            fun hok => absurd hok hcode, fun hok => absurd hok hcode⟩
      | assigned hnew htaken howns =>
          rename_i root taken forest'
          have hself : itself ref holders = true → holders.root.bind forest.trees = some value := by
            intro hself
            obtain ⟨hroot, hempty⟩ := of_decide_eq_true hself
            have hfound := hsourced.found
            rw [hempty, Json.findPath_nil] at hfound
            rw [hroot]
            exact hfound
          obtain ⟨hfind, hapart⟩ := findPath_assignedTree objects hself (hplace rfl)
          have hdocument : (some root).bind forest'.trees = some (assignedTree objects
              (itself ref holders) (holders.root.bind forest.trees) path value) := by
            rw [Option.bind_some, howns.holds, Function.update_self]
          refine ⟨fun hcode => absurd rfl hcode, fun hnone => absurd hnone hinvalid, fun _ => ?_,
            fun _ others hothers => ?_, fun _ => htaken, fun _ handle hne => ?_, fun _ => ?_⟩
          · refine ⟨path, ref, value, _, hvalid, rfl, hsourced.found, ?_, assignedValue_cases objects _⟩
            unfold praktorValueFind Assigned.document
            rw [hvalid]
            dsimp only
            rw [hdocument, hfind]
          · apply praktorValueFind_congr
            intro other hother
            show Json.findPath ((some root).bind forest'.trees) other = _
            rw [hdocument]
            exact hapart other (hothers path other hvalid hother)
          · rw [howns.holds, Function.update_of_ne fun heq => hne (congrArg some heq.symm),
              cleared_apply, cleared_apply]
            by_cases hroot : holders.root = some handle <;> by_cases hother : taking = .other <;>
              simp [hroot, hother]
          · exact ⟨path, ref, value, hvalid, rfl, hsourced.found, hdocument⟩

/-- Assignment to a path is exact and atomic, for a copy and for a value that is handed over. -/
structure AssignmentsExact : Prop where
  copied : ∀ (keys : List (Option Bytes)) (source : Option JsonRef) (root : Option Nat)
    (forest : Forest), Given source .copy ⟨root, none⟩ forest →
    ∃ outcome, praktorValueSetCopy objects keys source root forest = some outcome ∧
      Exact objects keys source .copy ⟨root, none⟩ forest outcome
  handed : ∀ (keys : List (Option Bytes)) (root taken : Option Nat) (forest : Forest),
    Given (taken.map fun tree => ⟨tree, []⟩) .other ⟨root, taken⟩ forest →
    ∃ outcome, praktorValueSetTake objects keys root taken forest = some outcome ∧
      Exact objects keys (taken.map fun tree => ⟨tree, []⟩) .other ⟨root, taken⟩ forest outcome
  itself : ∀ (keys : List (Option Bytes)) (root : Option Nat) (forest : Forest),
    Given (root.map fun tree => ⟨tree, []⟩) .root ⟨root, none⟩ forest →
    ∃ outcome, praktorValueSetTakeRoot objects keys root forest = some outcome ∧
      Exact objects keys (root.map fun tree => ⟨tree, []⟩) .root ⟨root, none⟩ forest outcome
  /-- A value that is handed over leaves the document that a copy of it leaves, whichever calls of
  the library fail on the way. -/
  same : ∀ (keys : List (Option Bytes)) (root : Option Nat) (tree : Nat) (forest : Forest)
    (failures : List Bool) (first second : Assigned),
    Given (some ⟨tree, []⟩) .other ⟨root, some tree⟩ forest →
    praktorValueSetTake objects keys root (some tree) forest = some first →
    praktorValueSetCopy objects keys (some ⟨tree, []⟩) root { forest with failures } = some second →
    first.code = .ok → second.code = .ok → first.document = second.document
  sameItself : ∀ (keys : List (Option Bytes)) (root : Nat) (forest : Forest)
    (failures : List Bool) (first second : Assigned),
    Given (some ⟨root, []⟩) .root ⟨some root, none⟩ forest →
    praktorValueSetTakeRoot objects keys (some root) forest = some first →
    praktorValueSetCopy objects keys (some ⟨root, []⟩) (some root) { forest with failures } =
      some second →
    first.code = .ok → second.code = .ok → first.document = second.document

/-- Two calls that go well leave one document. -/
theorem document_eq {keys : List (Option Bytes)} {source : Option JsonRef}
    {first second : Taking} {others : Holders} {later : Forest} {taken copied : Assigned}
    (hfirst : Exact objects keys source first holders forest taken)
    (hsecond : Exact objects keys source second others later copied)
    (hroot : others.root = holders.root) (htrees : later.trees = forest.trees)
    (htaken : taken.code = .ok) (hcopied : copied.code = .ok) :
    taken.document = copied.document := by
  obtain ⟨path, ref, value, hvalid, hsource, hvalue, hdocument⟩ := hfirst.document htaken
  obtain ⟨path', ref', value', hvalid', hsource', hvalue', hdocument'⟩ := hsecond.document hcopied
  obtain rfl := Option.some.inj (hvalid.symm.trans hvalid')
  obtain rfl := Option.some.inj (hsource.symm.trans hsource')
  have hsame : later.valueOf ref = forest.valueOf ref := by rw [Forest.valueOf, htrees, Forest.valueOf]
  obtain rfl := Option.some.inj (hvalue.symm.trans (hsame.symm.trans hvalue'))
  have hitself : itself ref others = itself ref holders := by rw [itself, hroot, itself]
  rw [hdocument, hdocument', hitself, hroot, htrees]

/-- What is given to a call that hands a value over may be given to one that copies it. -/
theorem Given.copies {source : Option JsonRef} (hgiven : Given source taking holders forest)
    (failures : List Bool) :
    Given source .copy ⟨holders.root, none⟩ { forest with failures } :=
  ⟨hgiven.fresh, ⟨hgiven.held.root, nofun, fun _ _ => nofun⟩, fun ref hsource => by
    obtain ⟨value, hsourced⟩ := hgiven.sourced ref hsource
    exact ⟨value, hsourced.found, nofun, nofun⟩⟩

theorem assignments_exact : AssignmentsExact objects where
  copied _ _ _ _ hgiven := setValue_exact objects _ hgiven
  handed _ _ _ _ hgiven := setValue_exact objects _ hgiven
  itself _ _ _ hgiven := setValue_exact objects _ hgiven
  same keys root tree forest failures first second hgiven hfirst hsecond htaken hcopied := by
    obtain ⟨outcome, houtcome, hexact⟩ := setValue_exact objects keys hgiven
    obtain ⟨copied, hcopy, hexactCopy⟩ := setValue_exact objects keys
      (hgiven.copies failures)
    obtain rfl := Option.some.inj (houtcome.symm.trans hfirst)
    obtain rfl := Option.some.inj (hcopy.symm.trans hsecond)
    exact document_eq objects hexact hexactCopy rfl rfl htaken hcopied
  sameItself keys root forest failures first second hgiven hfirst hsecond htaken hcopied := by
    obtain ⟨outcome, houtcome, hexact⟩ := setValue_exact objects keys hgiven
    obtain ⟨copied, hcopy, hexactCopy⟩ := setValue_exact objects keys
      (hgiven.copies failures)
    obtain rfl := Option.some.inj (houtcome.symm.trans hfirst)
    obtain rfl := Option.some.inj (hcopy.symm.trans hsecond)
    exact document_eq objects hexact hexactCopy rfl rfl htaken hcopied

end Outcome

end Praktor.Documents
