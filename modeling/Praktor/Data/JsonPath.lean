/-
# Paths in a JSON value

A path names a value by the keys that lead to it from the root.  A value is put at a path by
adding one member to the object where the path leaves the tree, with the missing objects around
the value.  Every path that does not meet the one that was put at keeps what it leads to.
-/

import Praktor.Data.Json
import Mathlib.Data.List.Infix

namespace Praktor.Data

/-! ## Apart -/

/-- Two paths of which neither continues the other. -/
def Apart (first second : List Bytes) : Prop := ¬ first <+: second ∧ ¬ second <+: first

section Apart

variable {first second : List Bytes} {key other : Bytes}

theorem not_apart_nil : ¬ Apart first [] := fun hapart => hapart.2 List.nil_prefix

theorem not_nil_apart : ¬ Apart [] second := fun hapart => hapart.1 List.nil_prefix

theorem apart_cons_self : Apart (key :: first) (key :: second) ↔ Apart first second := by
  simp [Apart]

end Apart

/-! ## Members -/

/-- How `json_object_add_n` puts a member among the others: it inserts the key, or replaces what
the key had. -/
structure JsonObjects where
  add : List (Bytes × Json) → Bytes → Json → List (Bytes × Json)
  lookup_add : ∀ members key value other,
    (add members key value).lookup other = if other = key then some value else members.lookup other

namespace Json

/-- The member of a key is changed where it stands. -/
def modifyMember (key : Bytes) (change : Json → Json) : List (Bytes × Json) → List (Bytes × Json)
  | [] => []
  | (name, value) :: rest =>
      if key = name then (name, change value) :: rest
      else (name, value) :: modifyMember key change rest

theorem lookup_modifyMember (key : Bytes) (change : Json → Json) (members : List (Bytes × Json))
    (other : Bytes) : (modifyMember key change members).lookup other =
      if other = key then (members.lookup key).map change else members.lookup other := by
  induction members with
  | nil =>
      rw [modifyMember]
      split
      · rfl
      · rfl
  | cons member rest ih =>
      obtain ⟨name, value⟩ := member
      rw [modifyMember]
      by_cases hname : key = name
      · subst hname
        rw [if_pos rfl, lookup_member, lookup_member, lookup_member, if_pos rfl]
        by_cases hother : other = key
        · rw [if_pos hother, if_pos hother]
          rfl
        · rw [if_neg hother, if_neg hother, if_neg hother]
      · rw [if_neg hname, lookup_member, ih, lookup_member, lookup_member, if_neg hname]
        by_cases hother : other = name
        · rw [if_pos hother, if_pos hother, if_neg fun hsame => hname (hsame.symm.trans hother)]
        · rw [if_neg hother, if_neg hother]

/-- Only what a key has matters to how its member is changed. -/
theorem modifyMember_congr {key : Bytes} {first second : Json → Json}
    {members : List (Bytes × Json)} (hsame : ∀ child, members.lookup key = some child →
      first child = second child) :
    modifyMember key first members = modifyMember key second members := by
  induction members with
  | nil => rfl
  | cons member rest ih =>
      obtain ⟨name, value⟩ := member
      rw [modifyMember, modifyMember]
      by_cases hname : key = name
      · rw [if_pos hname, if_pos hname, hsame value (by rw [lookup_member, if_pos hname])]
      · rw [if_neg hname, if_neg hname, ih fun child hchild => hsame child ?_]
        rw [lookup_member, if_neg hname, hchild]

theorem modifyMember_id {key : Bytes} {members : List (Bytes × Json)} :
    modifyMember key id members = members := by
  induction members with
  | nil => rfl
  | cons member rest ih =>
      obtain ⟨name, value⟩ := member
      rw [modifyMember]
      split
      · rfl
      · rw [ih]

/-- `json_is_null`. -/
def isNull : Json → Bool
  | null => true
  | _ => false

/-! ## Finding -/

/-- What a path leads to: the loop of `praktor_value_find`. -/
def findPath : Option Json → List Bytes → Option Json
  | root, [] => root
  | root, key :: rest => findPath (root.bind fun node => node.objectGet key) rest

@[simp]
theorem findPath_nil (root : Option Json) : findPath root [] = root := rfl

theorem findPath_cons (root : Option Json) (key : Bytes) (rest : List Bytes) :
    findPath root (key :: rest) = findPath (root.bind fun node => node.objectGet key) rest := rfl

@[simp]
theorem findPath_none (path : List Bytes) : findPath none path = none := by
  induction path with
  | nil => rfl
  | cons key rest ih => exact ih

theorem findPath_append (root : Option Json) (path more : List Bytes) :
    findPath root (path ++ more) = findPath (findPath root path) more := by
  induction path generalizing root with
  | nil => rfl
  | cons key rest ih => exact ih _

/-! ## Changing what a path leads to -/

/-- What a path leads to is changed where it stands. -/
def modifyAt : List Bytes → (Json → Json) → Json → Json
  | [], change, node => change node
  | key :: rest, change, object members => object (modifyMember key (modifyAt rest change) members)
  | _ :: _, _, node => node

theorem objectGet_modifyAt (key : Bytes) (rest : List Bytes) (change : Json → Json) (node : Json)
    (other : Bytes) : (modifyAt (key :: rest) change node).objectGet other =
      if other = key then (node.objectGet key).map (modifyAt rest change)
      else node.objectGet other := by
  cases node with
  | object members => exact lookup_modifyMember key _ members other
  | _ => simp [modifyAt, objectGet]

theorem findPath_modifyAt (path more : List Bytes) (change : Json → Json) (node : Json) :
    findPath (some (modifyAt path change node)) (path ++ more) =
      findPath ((findPath (some node) path).map change) more := by
  induction path generalizing node with
  | nil => rfl
  | cons key rest ih =>
      rw [List.cons_append, findPath_cons, findPath_cons, Option.bind_some, Option.bind_some,
        objectGet_modifyAt, if_pos rfl]
      cases node.objectGet key with
      | none => simp
      | some child => exact ih child

/-- A path that is apart leads to what it led to. -/
theorem findPath_modifyAt_apart {path other : List Bytes} (hapart : Apart path other)
    (change : Json → Json) (node : Json) :
    findPath (some (modifyAt path change node)) other = findPath (some node) other := by
  induction path generalizing node other with
  | nil => exact absurd hapart not_nil_apart
  | cons key rest ih =>
      cases other with
      | nil => exact absurd hapart not_apart_nil
      | cons first others =>
          rw [findPath_cons, findPath_cons, Option.bind_some, Option.bind_some, objectGet_modifyAt]
          by_cases hfirst : first = key
          · subst hfirst
            rw [if_pos rfl]
            cases node.objectGet first with
            | none => rfl
            | some child => exact ih (apart_cons_self.mp hapart) child
          · rw [if_neg hfirst]

end Json

/-! ## Assigning -/

namespace JsonObjects

open Json

variable (objects : JsonObjects)

/-- A member is put among those of an object. -/
def addMember (key : Bytes) (value : Json) : Json → Json
  | .object members => .object (objects.add members key value)
  | node => node

/-- A value in the objects that a path needs around it. -/
def nest : List Bytes → Json → Json
  | [], value => value
  | key :: rest, value => .object (objects.add [] key (nest rest value))

variable {objects}

theorem objectGet_addMember (key : Bytes) (value : Json) (members : List (Bytes × Json))
    (other : Bytes) : (objects.addMember key value (.object members)).objectGet other =
      if other = key then some value else members.lookup other :=
  objects.lookup_add members key value other

theorem nest_append (path more : List Bytes) (value : Json) :
    objects.nest (path ++ more) value = objects.nest path (objects.nest more value) := by
  induction path with
  | nil => rfl
  | cons key rest ih => rw [List.cons_append, nest, nest, ih]

theorem objectGet_nest (key : Bytes) (rest : List Bytes) (value : Json) (other : Bytes) :
    (objects.nest (key :: rest) value).objectGet other =
      if other = key then some (objects.nest rest value) else none :=
  objects.lookup_add [] key _ other

theorem findPath_nest (path : List Bytes) (value : Json) :
    findPath (some (objects.nest path value)) path = some value := by
  induction path with
  | nil => rfl
  | cons key rest ih => rw [findPath_cons, Option.bind_some, objectGet_nest, if_pos rfl, ih]

theorem findPath_nest_apart {path other : List Bytes} (hapart : Apart path other) (value : Json) :
    findPath (some (objects.nest path value)) other = none := by
  induction path generalizing other with
  | nil => exact absurd hapart not_nil_apart
  | cons key rest ih =>
      cases other with
      | nil => exact absurd hapart not_apart_nil
      | cons first others =>
          rw [findPath_cons, Option.bind_some, objectGet_nest]
          by_cases hfirst : first = key
          · subst hfirst
            rw [if_pos rfl]
            exact ih (apart_cons_self.mp hapart)
          · rw [if_neg hfirst, findPath_none]

/-! ### Where a path leaves the tree -/

/-- How many keys of a path lead to the object that the value is put under: the walk of
`set_value`, with the text of its refusal. -/
def locate : Json → List Bytes → Except String Nat
  | _, [] => .ok 0
  | .object members, key :: rest =>
      if rest = [] then .ok 0
      else
        match members.lookup key with
        | none => .ok 0
        | some child => (locate child rest).map (· + 1)
  | _, _ :: rest =>
      .error (if rest = [] then "Failed to assign WorkflowValue path"
        else "WorkflowValue path traverses a non-object value")

/-- The place that a walk finds: an object, and no member under the next key unless the next key
is the last. -/
structure Located (root : Json) (keys : List Bytes) (missing : Nat) : Prop where
  parent : ∃ members, findPath (some root) (keys.take missing) = some (.object members) ∧
    ∀ key rest, keys.drop missing = key :: rest → rest ≠ [] → members.lookup key = none
  bound : missing < keys.length

theorem locate_located {root : Json} {keys : List Bytes} {missing : Nat} (hkeys : keys ≠ [])
    (hlocate : locate root keys = .ok missing) : Located root keys missing := by
  induction keys generalizing root missing with
  | nil => exact absurd rfl hkeys
  | cons key rest ih =>
      cases root with
      | object members =>
          rw [locate] at hlocate
          split at hlocate
          · rename_i hlast
            cases hlocate
            refine ⟨⟨members, rfl, fun first others hdrop hothers => ?_⟩, Nat.succ_pos _⟩
            cases hdrop
            exact absurd hlast hothers
          rename_i hlast
          split at hlocate
          · rename_i hnone
            cases hlocate
            refine ⟨⟨members, rfl, fun first others hdrop _ => ?_⟩, Nat.succ_pos _⟩
            cases hdrop
            exact hnone
          · rename_i child hchild
            cases hdeeper : locate child rest with
            | error text =>
                rw [hdeeper] at hlocate
                cases hlocate
            | ok deeper =>
                rw [hdeeper] at hlocate
                cases hlocate
                obtain ⟨⟨inner, hparent, hnone⟩, hbound⟩ := ih hlast hdeeper
                refine ⟨⟨inner, ?_, hnone⟩, Nat.succ_lt_succ hbound⟩
                rw [List.take_succ_cons, findPath_cons, Option.bind_some, objectGet, hchild]
                exact hparent
      | _ => cases hlocate

/-- Where all the parents are there the walk goes to the last key. -/
theorem locate_eq {root : Json} {parents : List Bytes} {members : List (Bytes × Json)}
    (hparents : findPath (some root) parents = some (.object members)) (key : Bytes) :
    locate root (parents ++ [key]) = .ok parents.length := by
  induction parents generalizing root with
  | nil =>
      obtain rfl := Option.some.inj hparents
      rfl
  | cons first rest ih =>
      rw [findPath_cons, Option.bind_some] at hparents
      cases root with
      | object outer =>
          rw [objectGet] at hparents
          cases hchild : outer.lookup first with
          | none =>
              rw [hchild, findPath_none] at hparents
              cases hparents
          | some child =>
              rw [hchild] at hparents
              rw [List.cons_append, locate, if_neg (by simp), hchild]
              dsimp only
              rw [ih hparents]
              rfl
      | _ =>
          rw [objectGet, findPath_none] at hparents
          · cases hparents
          all_goals
            intro outer hobject
            cases hobject

variable (objects) in
/-- A value put into the tree under the object that the walk found. -/
def attach (root : Json) (keys : List Bytes) (missing : Nat) (value : Json) : Json :=
  match keys.drop missing with
  | [] => root
  | key :: rest => modifyAt (keys.take missing) (objects.addMember key (objects.nest rest value)) root

section Attach

variable {root value : Json} {keys other : List Bytes} {missing : Nat}

theorem findPath_attach (hlocated : Located root keys missing) :
    findPath (some (objects.attach root keys missing value)) keys = some value := by
  obtain ⟨⟨members, hparent, -⟩, hbound⟩ := hlocated
  cases hdrop : keys.drop missing with
  | nil => exact absurd (List.drop_eq_nil_iff.mp hdrop) (Nat.not_le.mpr hbound)
  | cons key rest =>
      unfold attach
      rw [hdrop]
      dsimp only
      have hkeys : keys = keys.take missing ++ key :: rest := by
        rw [← hdrop, List.take_append_drop]
      generalize keys.take missing = path at hparent hkeys ⊢
      rw [hkeys, findPath_modifyAt, hparent, Option.map_some, findPath_cons, Option.bind_some,
        objectGet_addMember, if_pos rfl, findPath_nest]

theorem findPath_attach_apart (hlocated : Located root keys missing) (hapart : Apart keys other) :
    findPath (some (objects.attach root keys missing value)) other = findPath (some root) other := by
  obtain ⟨⟨members, hparent, hnone⟩, hbound⟩ := hlocated
  cases hdrop : keys.drop missing with
  | nil => exact absurd (List.drop_eq_nil_iff.mp hdrop) (Nat.not_le.mpr hbound)
  | cons key rest =>
      unfold attach
      rw [hdrop]
      dsimp only
      have hkeys : keys = keys.take missing ++ key :: rest := by
        rw [← hdrop, List.take_append_drop]
      have hlookup := hnone key rest hdrop
      generalize keys.take missing = path at hparent hkeys ⊢
      subst hkeys
      by_cases hpath : path <+: other
      · obtain ⟨more, rfl⟩ := hpath
        have hmore : Apart (key :: rest) more := by
          refine ⟨fun hinitial => hapart.1 ?_, fun hinitial => hapart.2 ?_⟩
          · exact (List.prefix_append_right_inj path).mpr hinitial
          · exact (List.prefix_append_right_inj path).mpr hinitial
        rw [findPath_modifyAt, findPath_append, hparent, Option.map_some]
        cases more with
        | nil => exact absurd hmore not_apart_nil
        | cons first others =>
            rw [findPath_cons, findPath_cons, Option.bind_some, Option.bind_some,
              objectGet_addMember, objectGet]
            by_cases hfirst : first = key
            · -- the member is new, so nothing was found below it
              subst hfirst
              have hrest := apart_cons_self.mp hmore
              have hmissing : members.lookup first = none := by
                refine hlookup fun hempty => ?_
                rw [hempty] at hrest
                exact not_nil_apart hrest
              rw [if_pos rfl, findPath_nest_apart hrest, hmissing, findPath_none]
            · rw [if_neg hfirst]
      · apply findPath_modifyAt_apart
        refine ⟨hpath, fun hinitial => hapart.2 ?_⟩
        exact hinitial.trans (List.prefix_append _ _)

end Attach

/-! ### Parents -/

variable (objects) in
/-- A tree with the objects that a path names and that it does not have. -/
def withParents : List Bytes → Json → Json
  | [], node => node
  | key :: rest, .object members =>
      match members.lookup key with
      | some _ => .object (modifyMember key (withParents rest) members)
      | none => .object (objects.add members key (objects.nest rest (.object [])))
  | _ :: _, node => node

section Parents

variable {root : Json} {keys parents other : List Bytes} {key : Bytes} {missing : Nat}

theorem findPath_nest_empty {path : List Bytes} (hbeyond : ¬ other <+: path) :
    findPath (some (objects.nest path (.object []))) other = none := by
  induction path generalizing other with
  | nil =>
      cases other with
      | nil => exact absurd List.prefix_rfl hbeyond
      | cons first others =>
          rw [nest, findPath_cons, Option.bind_some, objectGet]
          exact findPath_none others
  | cons key rest ih =>
      cases other with
      | nil => exact absurd List.nil_prefix hbeyond
      | cons first others =>
          rw [findPath_cons, Option.bind_some, objectGet_nest]
          by_cases hfirst : first = key
          · subst hfirst
            rw [if_pos rfl]
            exact ih fun hinitial => hbeyond (List.cons_prefix_cons.mpr ⟨rfl, hinitial⟩)
          · rw [if_neg hfirst, findPath_none]

/-- Parents change nothing but the paths to them. -/
theorem findPath_withParents (hbeyond : ¬ other <+: parents) :
    findPath (some (objects.withParents parents root)) other = findPath (some root) other := by
  induction parents generalizing root other with
  | nil => rfl
  | cons key rest ih =>
      cases other with
      | nil => exact absurd List.nil_prefix hbeyond
      | cons first others =>
          have hrest : first = key → ¬ others <+: rest := fun hfirst hinitial =>
            hbeyond (List.cons_prefix_cons.mpr ⟨hfirst, hinitial⟩)
          cases root with
          | object members =>
              rw [withParents, findPath_cons, findPath_cons, Option.bind_some, Option.bind_some]
              cases hchild : members.lookup key with
              | some child =>
                  dsimp only
                  rw [objectGet, objectGet, lookup_modifyMember]
                  by_cases hfirst : first = key
                  · rw [if_pos hfirst, hfirst, hchild]
                    exact ih (hrest hfirst)
                  · rw [if_neg hfirst]
              | none =>
                  dsimp only
                  rw [objectGet, objectGet, objects.lookup_add]
                  by_cases hfirst : first = key
                  · rw [if_pos hfirst, hfirst, hchild, findPath_none]
                    exact findPath_nest_empty (hrest hfirst)
                  · rw [if_neg hfirst]
          | _ => rfl

/-- A tree that has the parents stays as it is. -/
theorem withParents_of_found {members : List (Bytes × Json)}
    (hfound : findPath (some root) parents = some (.object members)) :
    objects.withParents parents root = root := by
  induction parents generalizing root with
  | nil => rfl
  | cons key rest ih =>
      rw [findPath_cons, Option.bind_some] at hfound
      cases root with
      | object outer =>
          rw [objectGet] at hfound
          cases hchild : outer.lookup key with
          | none =>
              rw [hchild, findPath_none] at hfound
              cases hfound
          | some child =>
              rw [hchild] at hfound
              have hsame : modifyMember key (objects.withParents rest) outer =
                  modifyMember key id outer := by
                refine modifyMember_congr fun other hother => ?_
                obtain rfl := Option.some.inj (hchild.symm.trans hother)
                exact ih hfound
              rw [withParents, hchild]
              dsimp only
              rw [hsame, modifyMember_id]
      | _ => rfl

/-- The walk along a longer path that stops early stops in the same place. -/
theorem locate_parents (hlocate : locate root (parents ++ [key]) = .ok missing)
    (hmissing : missing < parents.length) : locate root parents = .ok missing := by
  induction parents generalizing root missing with
  | nil => exact absurd hmissing (Nat.not_lt_zero _)
  | cons first rest ih =>
      cases root with
      | object members =>
          rw [List.cons_append, locate, if_neg (by simp)] at hlocate
          rw [locate]
          cases hchild : members.lookup first with
          | none =>
              rw [hchild] at hlocate
              cases hlocate
              split
              · rfl
              · rfl
          | some child =>
              rw [hchild] at hlocate
              dsimp only at hlocate ⊢
              cases hdeeper : locate child (rest ++ [key]) with
              | error text =>
                  rw [hdeeper] at hlocate
                  cases hlocate
              | ok deeper =>
                  rw [hdeeper] at hlocate
                  cases hlocate
                  have hbound : deeper < rest.length := Nat.lt_of_succ_lt_succ hmissing
                  rw [if_neg (List.ne_nil_of_length_pos (Nat.zero_lt_of_lt hbound)),
                    ih hdeeper hbound]
                  rfl
      | _ => cases hlocate

/-- The missing parents are one object put at the last of them. -/
theorem attach_parents (hlocate : locate root (parents ++ [key]) = .ok missing)
    (hmissing : missing < parents.length) :
    objects.attach root parents missing (.object []) = objects.withParents parents root := by
  induction parents generalizing root missing with
  | nil => exact absurd hmissing (Nat.not_lt_zero _)
  | cons first rest ih =>
      cases root with
      | object members =>
          rw [List.cons_append, locate, if_neg (by simp)] at hlocate
          rw [withParents]
          cases hchild : members.lookup first with
          | none =>
              rw [hchild] at hlocate
              cases hlocate
              rfl
          | some child =>
              rw [hchild] at hlocate
              dsimp only at hlocate ⊢
              cases hdeeper : locate child (rest ++ [key]) with
              | error text =>
                  rw [hdeeper] at hlocate
                  cases hlocate
              | ok deeper =>
                  rw [hdeeper] at hlocate
                  cases hlocate
                  have hbound : deeper < rest.length := Nat.lt_of_succ_lt_succ hmissing
                  have hinner := ih hdeeper hbound
                  unfold attach at hinner ⊢
                  rw [List.drop_succ_cons, List.take_succ_cons]
                  cases hdrop : rest.drop deeper with
                  | nil => exact absurd (List.drop_eq_nil_iff.mp hdrop) (Nat.not_le.mpr hbound)
                  | cons next others =>
                      rw [hdrop] at hinner
                      dsimp only at hinner ⊢
                      rw [modifyAt, modifyMember_congr]
                      intro other hother
                      obtain rfl := Option.some.inj (hchild.symm.trans hother)
                      exact hinner
      | _ => cases hlocate

end Parents

end JsonObjects

end Praktor.Data
