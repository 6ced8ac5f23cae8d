/-
# What an assignment leaves

Whichever allocation fails, an assignment frees nothing twice, uses no tree that is gone and
leaves no tree behind: when it fails the forest is what it was, and when it goes well the
document has one new tree, in which the path leads to the value and every path apart of it to
what it led to before.
-/

import Praktor.Documents.Assignment

namespace Praktor.Documents

open Praktor.Data

/-! ## The forest -/

/-- The trees of a forest, of which none has a handle that is still to come. -/
structure Owns (trees : Nat → Option Json) (forest : Forest) : Prop where
  holds : forest.trees = trees
  fresh : ∀ handle, forest.next ≤ handle → trees handle = none

namespace Owns

variable {objects : JsonObjects} {trees : Nat → Option Json} {forest : Forest}

theorem fails (howns : Owns trees forest) : Owns trees forest.fails.2 := by
  unfold Forest.fails
  split
  · exact howns
  · exact ⟨howns.holds, howns.fresh⟩

/-- A new tree has a handle of its own. -/
theorem allocate (howns : Owns trees forest) (value : Json) :
    (∃ asked, forest.allocate value = (none, asked) ∧ Owns trees asked) ∨
      ∃ handle created, forest.allocate value = (some handle, created) ∧ trees handle = none ∧
        Owns (Function.update trees handle (some value)) created := by
  have hasked := howns.fails
  unfold Forest.allocate
  generalize forest.fails = answer at hasked ⊢
  obtain ⟨failed, asked⟩ := answer
  cases failed with
  | true => exact .inl ⟨asked, rfl, hasked⟩
  | false =>
      refine .inr ⟨asked.next, _, rfl, hasked.fresh _ (Nat.le_refl _), ⟨?_, fun handle hle => ?_⟩⟩
      · rw [← hasked.holds]
      · have hlt : asked.next < handle := hle
        rw [Function.update_of_ne hlt.ne']
        exact hasked.fresh handle hlt.le

theorem release (howns : Owns trees forest) {handle : Nat} {value : Json}
    (hlive : trees handle = some value) :
    ∃ freed, forest.release (some handle) = some freed ∧
      Owns (Function.update trees handle none) freed := by
  have htree : forest.trees handle = some value := by rw [howns.holds, hlive]
  unfold Forest.release
  dsimp only
  rw [htree]
  refine ⟨_, rfl, ⟨by rw [← howns.holds], fun other hle => ?_⟩⟩
  by_cases hother : other = handle
  · rw [hother, Function.update_self]
  · rw [Function.update_of_ne hother]
    exact howns.fresh other hle

variable (objects) in
/-- Adding a member adopts the child, or changes nothing. -/
theorem addChild (howns : Owns trees forest) {target child : Nat} {tree value : Json}
    (htarget : trees target = some tree) (hchild : trees child = some value) (path : List Bytes)
    (key : Bytes) :
    (∃ refused, forest.addChild objects target path key child = some (false, refused) ∧
        Owns trees refused) ∨
      ∃ added, forest.addChild objects target path key child = some (true, added) ∧
        Owns (Function.update (Function.update trees child none) target
          (some (Json.modifyAt path (objects.addMember key value) tree))) added := by
  have hasked := howns.fails
  unfold Forest.addChild
  rw [howns.holds, htarget, hchild]
  dsimp only
  generalize forest.fails = answer at hasked ⊢
  obtain ⟨failed, asked⟩ := answer
  cases failed with
  | true => exact .inl ⟨asked, rfl, hasked⟩
  | false =>
      refine .inr ⟨_, rfl, ⟨by rw [← hasked.holds], fun other hle => ?_⟩⟩
      have hnone := hasked.fresh other hle
      have htargetNe : other ≠ target := by
        rintro rfl
        simp [htarget] at hnone
      rw [Function.update_of_ne htargetNe]
      by_cases hother : other = child
      · rw [hother, Function.update_self]
      · rw [Function.update_of_ne hother]
        exact hnone

end Owns

section Steps

variable (objects : JsonObjects) {trees : Nat → Option Json} {forest : Forest}

/-- What was put at a handle that had no tree is gone again. -/
theorem update_none {handle : Nat} (hnone : trees handle = none) (value : Option Json) :
    Function.update (Function.update trees handle value) handle none = trees := by
  rw [Function.update_idem, ← hnone, Function.update_eq_self]

theorem update_none_of {handle other : Nat} (hnone : trees handle = none) :
    Function.update (Function.update trees handle none) other none =
      Function.update trees other none := by
  have hsame : Function.update trees handle none = trees := by
    rw [← hnone, Function.update_eq_self]
  rw [hsame]

/-- A value is wrapped in the objects around it, or nothing of it is left. -/
theorem wrapValue_owns (keys : List Bytes) {pending : Nat} {value : Json}
    (howns : Owns trees forest) (hpending : trees pending = some value) :
    (∃ freed, wrapValue objects keys pending forest = some (none, freed) ∧
        Owns (Function.update trees pending none) freed) ∨
      ∃ outer made, wrapValue objects keys pending forest = some (some outer, made) ∧
        Owns (Function.update (Function.update trees pending none) outer
          (some (objects.nest keys.reverse value))) made ∧
        (outer = pending ∨ trees outer = none) := by
  induction keys generalizing trees forest pending value with
  | nil =>
      refine .inr ⟨pending, forest, rfl, ?_, .inl rfl⟩
      have hsame : Function.update (Function.update trees pending none) pending
          (some (objects.nest [] value)) = trees := by
        rw [Function.update_idem, JsonObjects.nest, ← hpending, Function.update_eq_self]
      rw [List.reverse_nil, hsame]
      exact howns
  | cons key rest ih =>
      rw [wrapValue]
      rcases howns.allocate (.object []) with ⟨asked, hasked, hownsAsked⟩ |
        ⟨object, created, hcreated, hobject, hownsCreated⟩
      · rw [hasked]
        obtain ⟨freed, hfreed, hownsFreed⟩ := hownsAsked.release hpending
        exact .inl ⟨freed, by simp [hfreed], hownsFreed⟩
      rw [hcreated]
      dsimp only
      have hne : pending ≠ object := by
        rintro rfl
        simp [hpending] at hobject
      have hcreatedPending : Function.update trees object (some (.object [])) pending =
          some value := by
        rw [Function.update_of_ne hne, hpending]
      rcases hownsCreated.addChild objects (Function.update_self _ _ _) hcreatedPending
        [] key with ⟨refused, hrefused, hownsRefused⟩ | ⟨added, hadded, hownsAdded⟩
      · rw [hrefused]
        obtain ⟨freed, hfreed, hownsFreed⟩ := hownsRefused.release (Function.update_self _ _ _)
        rw [update_none hobject] at hownsFreed
        obtain ⟨cleared, hcleared, hownsCleared⟩ := hownsFreed.release hpending
        exact .inl ⟨cleared, by simp [hfreed, hcleared], hownsCleared⟩
      · rw [hadded]
        dsimp only
        have hcleared : Function.update (Function.update (Function.update (Function.update trees
            object (some (.object []))) pending none) object
              (some (Json.modifyAt [] (objects.addMember key value) (.object [])))) object none =
            Function.update trees pending none := by
          rw [Function.update_idem, Function.update_comm hne, Function.update_idem,
            update_none_of hobject]
        rcases ih hownsAdded (Function.update_self _ _ _) with ⟨freed, hfreed, hownsFreed⟩ |
          ⟨outer, made, hmade, hownsMade, houter⟩
        · rw [hcleared] at hownsFreed
          exact .inl ⟨freed, hfreed, hownsFreed⟩
        · rw [hcleared] at hownsMade
          refine .inr ⟨outer, made, hmade, ?_, ?_⟩
          · rw [List.reverse_cons, JsonObjects.nest_append]
            exact hownsMade
          · rcases houter with rfl | houter
            · exact .inr hobject
            · by_cases hpendingOuter : outer = pending
              · exact .inl hpendingOuter
              · right
                have hobjectOuter : outer ≠ object := by
                  rintro rfl
                  simp at houter
                rwa [Function.update_of_ne hobjectOuter, Function.update_of_ne hpendingOuter,
                  Function.update_of_ne hobjectOuter] at houter

end Steps


/-! ## What is left -/

/-- The trees once a variable is emptied. -/
def cleared (handle : Option Nat) (trees : Nat → Option Json) : Nat → Option Json :=
  match handle with
  | none => trees
  | some handle => Function.update trees handle none

/-- The document with a value in its place. -/
def placed (objects : JsonObjects) (place : Place) (root : Option Json) (path : List Bytes)
    (value : Json) : Json :=
  if place.replaceRoot then objects.nest path value
  else
    match root with
    | none => value
    | some tree => objects.attach tree path place.missing value

/-- What an assignment comes to: nothing is changed, or the document is a new tree, its old tree is
gone and the value that was handed over is no longer held. -/
inductive Settled (trees : Nat → Option Json) (holders : Holders) (taking : Taking) (tree : Json) :
    Assigned → Prop
  | refused {code : Salts} {error : Option String} {forest : Forest} (hcode : code ≠ .ok)
      (howns : Owns trees forest) : Settled trees holders taking tree ⟨code, error, holders, forest⟩
  | assigned {root : Nat} {taken : Option Nat} {forest : Forest}
      (hnew : trees root = none ∨ holders.root = some root ∨ holders.taken = some root)
      (htaken : taken = if taking = .other then none else holders.taken)
      (howns : Owns (Function.update (cleared (if taking = .other then holders.taken else none)
        (cleared holders.root trees)) root (some tree)) forest) :
      Settled trees holders taking tree ⟨.ok, none, ⟨some root, taken⟩, forest⟩

/-- The variables of the caller hold trees, and not the same one. -/
structure Held (trees : Nat → Option Json) (holders : Holders) : Prop where
  root : ∀ handle, holders.root = some handle → trees handle ≠ none
  taken : ∀ handle, holders.taken = some handle → trees handle ≠ none
  apart : ∀ handle, holders.root = some handle → holders.taken ≠ some handle

section Settling

variable (objects : JsonObjects) {trees : Nat → Option Json} {forest : Forest} {holders : Holders}
  {place : Place} {path : List Bytes} {taking : Taking} {value : Json}

theorem cleared_some (handle : Nat) :
    cleared (some handle) trees = Function.update trees handle none := rfl

theorem cleared_update {handle : Option Nat} {outer : Nat} (hne : handle ≠ some outer)
    (tree : Option Json) : cleared handle (Function.update trees outer tree) =
      Function.update (cleared handle trees) outer tree := by
  cases handle with
  | none => rfl
  | some handle =>
      exact Function.update_comm (fun hsame => hne (by rw [hsame])) _ _ _

theorem cleared_of_ne {handle : Option Nat} {other : Nat} (hne : handle ≠ some other) :
    cleared handle trees other = trees other := by
  cases handle with
  | none => rfl
  | some handle => exact Function.update_of_ne (fun hsame => hne (by rw [hsame])) _ _

/-- Freeing what a variable holds. -/
theorem Owns.clear (howns : Owns trees forest) {handle : Option Nat}
    (hlive : ∀ held, handle = some held → trees held ≠ none) :
    ∃ freed, forest.release handle = some freed ∧ Owns (cleared handle trees) freed := by
  cases handle with
  | none => exact ⟨forest, rfl, howns⟩
  | some held =>
      obtain ⟨value, hvalue⟩ := Option.ne_none_iff_exists'.mp (hlive held rfl)
      exact howns.release hvalue

/-- The variable that was handed over is emptied, once the value was copied. -/
theorem emptied_owns (howns : Owns trees forest)
    (hlive : ∀ held, holders.taken = some held → trees held ≠ none) :
    ∃ freed, (if taking = .other then
        (if true then forest.release holders.taken else some forest).map fun freed =>
          (⟨.ok, none, { holders with taken := none }, freed⟩ : Assigned)
      else some ⟨.ok, none, holders, forest⟩) =
        some ⟨.ok, none,
          { holders with taken := if taking = .other then none else holders.taken }, freed⟩ ∧
      Owns (cleared (if taking = .other then holders.taken else none) trees) freed := by
  by_cases hother : taking = .other
  · rw [if_pos hother, if_pos hother, if_pos hother, if_pos rfl]
    obtain ⟨freed, hfreed, hownsFreed⟩ := howns.clear hlive
    exact ⟨freed, by rw [hfreed]; rfl, hownsFreed⟩
  · rw [if_neg hother, if_neg hother, if_neg hother]
    exact ⟨forest, rfl, howns⟩

/-- A copy in its objects is put in its place. -/
theorem adopt_copied {outer : Nat} (hheld : Held trees holders) (houter : trees outer = none)
    (howns : Owns (Function.update trees outer (some (objects.nest
      (path.drop (place.missing + if place.replaceRoot then 0 else 1)) value))) forest)
    (hwhole : place.replaceRoot = true → place.missing = 0)
    (hinside : place.replaceRoot = false →
      ∃ root, holders.root = some root ∧ place.missing < path.length) :
    ∃ outcome, adopt objects place path taking true outer holders forest = some outcome ∧
      Settled trees holders taking (placed objects place (holders.root.bind trees) path value)
        outcome := by
  have hroot : holders.root ≠ some outer := fun hsame => hheld.root outer hsame houter
  have htaken : (if taking = .other then holders.taken else none) ≠ some outer := by
    split
    · exact fun hsame => hheld.taken outer hsame houter
    · exact nofun
  unfold adopt placed
  dsimp only
  cases hreplace : place.replaceRoot with
  | true =>
      rw [if_pos rfl, if_pos rfl]
      rw [hreplace, if_pos rfl, hwhole hreplace, List.drop_zero] at howns
      have hlive : ∀ held, holders.root = some held →
          Function.update trees outer (some (objects.nest path value)) held ≠ none := by
        rintro held hsame
        have hne : held ≠ outer := fun heq => hroot (hsame.trans (congrArg some heq))
        rw [Function.update_of_ne hne]
        exact hheld.root held hsame
      obtain ⟨freed, hfreed, hownsFreed⟩ := howns.clear hlive
      rw [cleared_update hroot] at hownsFreed
      have hlive : ∀ held, holders.taken = some held →
          Function.update (cleared holders.root trees) outer
            (some (objects.nest path value)) held ≠ none := by
        intro held hsame
        have hne : held ≠ outer := fun heq => hheld.taken outer (heq ▸ hsame) houter
        rw [Function.update_of_ne hne,
          cleared_of_ne fun hrooted => hheld.apart held hrooted hsame]
        exact hheld.taken held hsame
      rw [hfreed, Option.bind_some]
      obtain ⟨last, hlast, hownsLast⟩ :=
        @emptied_owns _ freed { holders with root := some outer } taking hownsFreed hlive
      rw [cleared_update htaken] at hownsLast
      exact ⟨_, hlast, .assigned (.inl houter) rfl hownsLast⟩
  | false =>
      obtain ⟨root, hrooted, hmissing⟩ := hinside hreplace
      obtain ⟨tree, htree⟩ := Option.ne_none_iff_exists'.mp (hheld.root root hrooted)
      have hne : root ≠ outer := fun heq => hroot (heq ▸ hrooted)
      rw [if_neg Bool.false_ne_true, if_neg Bool.false_ne_true, hrooted, Option.bind_some, htree]
      dsimp only
      unfold JsonObjects.attach
      rw [hreplace, if_neg Bool.false_ne_true] at howns
      cases hdrop : path.drop place.missing with
      | nil => exact absurd (List.drop_eq_nil_iff.mp hdrop) (Nat.not_le.mpr hmissing)
      | cons key rest =>
          have hrest : path.drop (place.missing + 1) = rest := by
            rw [← List.drop_drop, hdrop, List.drop_succ_cons, List.drop_zero]
          rw [hrest] at howns
          dsimp only
          rcases howns.addChild objects ((Function.update_of_ne hne _ _).trans htree)
            (Function.update_self _ _ _) (path.take place.missing) key with
            ⟨refused, hrefused, hownsRefused⟩ | ⟨added, hadded, hownsAdded⟩
          · rw [hrefused]
            dsimp only
            rw [if_pos rfl]
            obtain ⟨freed, hfreed, hownsFreed⟩ := hownsRefused.release (Function.update_self _ _ _)
            rw [update_none houter] at hownsFreed
            rw [hfreed]
            exact ⟨_, rfl, .refused (by decide) hownsFreed⟩
          · rw [hadded]
            dsimp only
            rw [update_none houter] at hownsAdded
            have hlive : ∀ held, holders.taken = some held →
                Function.update trees root (some (Json.modifyAt (path.take place.missing)
                  (objects.addMember key (objects.nest rest value)) tree)) held ≠ none := by
              intro held hsame
              have hne : held ≠ root := fun heq =>
                hheld.apart root hrooted (hsame.trans (congrArg some heq))
              rw [Function.update_of_ne hne]
              exact hheld.taken held hsame
            obtain ⟨last, hlast, hownsLast⟩ :=
              @emptied_owns _ added holders taking hownsAdded hlive
            rw [hrooted] at hlast
            refine ⟨_, hlast, ?_⟩
            refine .assigned (.inr (.inl hrooted)) rfl ?_
            rw [hrooted]
            have hother : (if taking = .other then holders.taken else none) ≠ some root := by
              split
              · exact hheld.apart root hrooted
              · exact nofun
            rw [cleared_update hother] at hownsLast
            rw [cleared_some, cleared_update hother, Function.update_idem]
            exact hownsLast

/-- The value that is handed over becomes a member of an object that is there. -/
theorem adopt_taken {pending : Nat} (hheld : Held trees holders)
    (htaken : holders.taken = some pending) (hvalue : trees pending = some value)
    (howns : Owns trees forest) (hinside : place.replaceRoot = false)
    {root : Nat} (hrooted : holders.root = some root) (hmissing : path.length = place.missing + 1) :
    ∃ outcome, adopt objects place path .other false pending holders forest = some outcome ∧
      Settled trees holders .other (placed objects place (holders.root.bind trees) path value)
        outcome := by
  obtain ⟨tree, htree⟩ := Option.ne_none_iff_exists'.mp (hheld.root root hrooted)
  unfold adopt placed
  dsimp only
  rw [hinside, if_neg Bool.false_ne_true, if_neg Bool.false_ne_true, hrooted, Option.bind_some,
    htree]
  dsimp only
  unfold JsonObjects.attach
  cases hdrop : path.drop place.missing with
  | nil => exact absurd (List.drop_eq_nil_iff.mp hdrop) (by omega)
  | cons key rest =>
      have hrest : rest = [] := by
        have hlength := congrArg List.length hdrop
        rw [List.length_drop, List.length_cons] at hlength
        exact List.length_eq_zero_iff.mp (by omega)
      subst hrest
      dsimp only
      rcases howns.addChild objects htree hvalue (path.take place.missing) key with
        ⟨refused, hrefused, hownsRefused⟩ | ⟨added, hadded, hownsAdded⟩
      · rw [hrefused]
        exact ⟨_, rfl, .refused (by decide) hownsRefused⟩
      · rw [hadded]
        refine ⟨_, rfl, .assigned (.inr (.inl hrooted)) rfl ?_⟩
        have hne : holders.taken ≠ some root := hheld.apart root hrooted
        rw [htaken] at hne
        rw [if_pos rfl, hrooted, htaken, cleared_some root, cleared_update hne,
          Function.update_idem]
        exact hownsAdded

/-- What a place is in a document. -/
theorem placeOf_ok {root : Option Json} (hpath : path ≠ [])
    (hplace : placeOf root path = .ok place) :
    (place = ⟨true, 0⟩ ∧ ∀ tree, root = some tree → tree.isNull = true) ∨
      ∃ tree, root = some tree ∧ place.replaceRoot = false ∧
        JsonObjects.locate tree path = .ok place.missing ∧
        JsonObjects.Located tree path place.missing := by
  unfold placeOf at hplace
  cases root with
  | none =>
      cases hplace
      exact .inl ⟨rfl, nofun⟩
  | some tree =>
      dsimp only at hplace
      split at hplace
      · rename_i hnull
        cases hplace
        exact .inl ⟨rfl, fun other hother => Option.some.inj hother ▸ hnull⟩
      · cases hlocate : JsonObjects.locate tree path with
        | error text =>
            rw [hlocate] at hplace
            cases hplace
        | ok missing =>
            rw [hlocate] at hplace
            cases hplace
            exact .inr ⟨tree, rfl, rfl, hlocate, JsonObjects.locate_located hpath hlocate⟩

variable (taking) in
/-- An ordinary assignment is settled, whichever calls fail. -/
theorem setInside_settled (source : JsonRef) (hheld : Held trees holders)
    (howns : Owns trees forest) (hvalue : Json.findPath (trees source.tree) source.path = some value)
    (hsource : taking = .other → holders.taken = some source.tree ∧ source.path = [])
    (hpath : path ≠ []) (hplace : placeOf (holders.root.bind trees) path = .ok place) :
    ∃ outcome, setInside objects place path source taking holders forest = some outcome ∧
      Settled trees holders taking (placed objects place (holders.root.bind trees) path value)
        outcome := by
  have hcase := placeOf_ok hpath hplace
  have hwhole : place.replaceRoot = true → place.missing = 0 := by
    rcases hcase with ⟨rfl, -⟩ | ⟨tree, -, hinside, -, -⟩
    · exact fun _ => rfl
    · rw [hinside]
      exact nofun
  have hrooted : place.replaceRoot = false →
      ∃ root, holders.root = some root ∧ place.missing < path.length := by
    rcases hcase with ⟨rfl, -⟩ | ⟨tree, htree, -, -, hlocated⟩
    · exact nofun
    · intro _
      obtain ⟨root, hroot, -⟩ := Option.bind_eq_some_iff.mp htree
      exact ⟨root, hroot, hlocated.bound⟩
  unfold setInside
  dsimp only
  split
  · rename_i hcopied
    rw [hcopied, howns.holds, hvalue]
    dsimp only
    rcases howns.allocate value with ⟨asked, hasked, hownsAsked⟩ |
      ⟨pending, created, hcreated, hpending, hownsCreated⟩
    · rw [hasked]
      exact ⟨_, rfl, .refused (by decide) hownsAsked⟩
    rw [hcreated]
    dsimp only
    rcases wrapValue_owns objects
      (path.drop (place.missing + if place.replaceRoot then 0 else 1)).reverse hownsCreated
      (Function.update_self _ _ _) with ⟨freed, hfreed, hownsFreed⟩ |
        ⟨outer, made, hmade, hownsMade, houter⟩
    · rw [hfreed]
      rw [update_none hpending] at hownsFreed
      exact ⟨_, rfl, .refused (by decide) hownsFreed⟩
    · rw [hmade]
      rw [update_none hpending, List.reverse_reverse] at hownsMade
      refine adopt_copied objects hheld ?_ hownsMade hwhole hrooted
      rcases houter with rfl | houter
      · exact hpending
      · by_cases hsame : outer = pending
        · rw [hsame]
          exact hpending
        · rwa [Function.update_of_ne hsame] at houter
  · rename_i hcopied
    simp only [Bool.or_eq_true, decide_eq_true_eq, not_or, not_not, Bool.not_eq_true] at hcopied
    obtain ⟨⟨rfl, hinside⟩, hlast⟩ := hcopied
    obtain ⟨htaken, hempty⟩ := hsource rfl
    obtain ⟨root, hroot, hmissing⟩ := hrooted hinside
    rw [hempty, Json.findPath_nil] at hvalue
    rw [hinside, htaken, if_neg Bool.false_ne_true, List.drop_eq_nil_of_le (by omega)]
    dsimp only
    rw [List.reverse_nil, wrapValue]
    dsimp only
    have hlength : path.length = place.missing + 1 := by omega
    have hdecided : (decide (Taking.other ≠ .other) || false ||
        decide (place.missing + 1 < path.length)) = false := by
      rw [hlength]
      simp
    rw [hdecided]
    exact adopt_taken objects hheld htaken hvalue howns hinside hroot hlength

end Settling

end Praktor.Documents
