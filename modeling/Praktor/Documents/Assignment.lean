/-
# Assignment to a path

`workflow_value.c`: a value is put at a path of a document, as a copy or by handing it over.
The function owns several trees at a time; which of them it clones, adopts and frees depends on
where the path leaves the document, on whether the value is the document itself and on which
allocation fails.

Memory is a forest: a tree for each handle that is owned.  A handle that is freed twice, or used
when it is not owned, stops the run.
-/

import Praktor.Data.JsonPath
import Mathlib.Logic.Function.Basic

namespace Praktor.Documents

open Praktor.Data

/-! ## Trees that are owned -/

/-- The trees, the next handle that is handed out and which of the coming calls of the JSON
library fail. -/
structure Forest where
  trees : Nat → Option Json
  next : Nat
  failures : List Bool

namespace Forest

/-- Whether the next call of the library fails. -/
def fails (forest : Forest) : Bool × Forest :=
  match forest.failures with
  | [] => (false, forest)
  | failure :: rest => (failure, { forest with failures := rest })

/-- A new tree: `json_create_object` and `json_clone`. -/
def allocate (value : Json) (forest : Forest) : Option Nat × Forest :=
  let (failed, asked) := forest.fails
  if failed then (none, asked)
  else
    (some asked.next,
      { asked with
        trees := Function.update asked.trees asked.next (some value), next := asked.next + 1 })

/-- `json_free`: freeing no tree does nothing. -/
def release (handle : Option Nat) (forest : Forest) : Option Forest :=
  match handle with
  | none => some forest
  | some handle =>
      match forest.trees handle with
      | none => none
      | some _ => some { forest with trees := Function.update forest.trees handle none }

variable (objects : JsonObjects)

/-- `json_object_add_n` on the object that a path of a tree leads to: it adopts the child, or it
changes nothing. -/
def addChild (target : Nat) (path : List Bytes) (key : Bytes) (child : Nat) (forest : Forest) :
    Option (Bool × Forest) :=
  match forest.trees target, forest.trees child with
  | some tree, some value =>
      let (failed, asked) := forest.fails
      if failed then some (false, asked)
      else
        some (true,
          { asked with
            trees := Function.update (Function.update asked.trees child none) target
              (some (Json.modifyAt path (objects.addMember key value) tree)) })
  | _, _ => none

end Forest

/-! ## Arguments -/

/-- `valid_path`: a key that is no valid view is missing in the list. -/
def validPath (keys : List (Option Bytes)) : Option (List Bytes) :=
  if keys.length > 128 then none else keys.mapM id

/-- `praktor_value_find`. -/
def praktorValueFind (root : Option Json) (keys : List (Option Bytes)) : Salts × Option Json :=
  match validPath keys with
  | none => (.einval, none)
  | some path =>
      match Json.findPath root path with
      | none => (.enoent, none)
      | some value => (.ok, some value)

/-- A node of a tree. -/
structure JsonRef where
  tree : Nat
  path : List Bytes
  deriving DecidableEq

/-- Whether the value is copied or handed over, and from which variable. -/
inductive Taking
  | copy
  | root
  | other
  deriving DecidableEq

/-- The variables of the caller: the document, and the value that is handed over. -/
structure Holders where
  root : Option Nat
  taken : Option Nat

/-- What a call answers, and what it leaves. -/
structure Assigned where
  code : Salts
  error : Option String := none
  holders : Holders
  forest : Forest

/-! ## The function -/

section Assignment

variable (objects : JsonObjects)

/-- The objects around the value, innermost first; nothing is left of them when one fails. -/
def wrapValue : List Bytes → Nat → Forest → Option (Option Nat × Forest)
  | [], pending, forest => some (some pending, forest)
  | key :: rest, pending, forest =>
      match forest.allocate (.object []) with
      | (none, asked) => (asked.release (some pending)).map fun freed => (none, freed)
      | (some object, created) =>
          match created.addChild objects object [] key pending with
          | none => none
          | some (true, added) => wrapValue rest object added
          | some (false, refused) =>
              (refused.release (some object)).bind fun freed =>
                (freed.release (some pending)).map fun cleared => (none, cleared)

/-- The place of the value: whether the document is replaced, and how many keys lead to the
object that the value is put under. -/
structure Place where
  replaceRoot : Bool
  missing : Nat
  deriving DecidableEq

/-- Where a path leaves the document. -/
def placeOf (tree : Option Json) (path : List Bytes) : Except String Place :=
  match tree with
  | none => .ok ⟨true, 0⟩
  | some node =>
      if node.isNull then .ok ⟨true, 0⟩
      else (JsonObjects.locate node path).map fun missing => ⟨false, missing⟩

/-- The document itself is assigned: a path without keys. -/
def setRoot (source : JsonRef) (taking : Taking) (holders : Holders) (forest : Forest) :
    Option Assigned :=
  match taking with
  | .root => some ⟨.ok, none, holders, forest⟩
  | .other =>
      (forest.release holders.root).map fun freed => ⟨.ok, none, ⟨holders.taken, none⟩, freed⟩
  | .copy =>
      match Json.findPath (forest.trees source.tree) source.path with
      | none => none
      | some value =>
          match forest.allocate value with
          | (none, asked) =>
              some ⟨.enomem, some "Failed to clone WorkflowValue", holders, asked⟩
          | (some pending, created) =>
              (created.release holders.root).map fun freed =>
                ⟨.ok, none, { holders with root := some pending }, freed⟩

/-- The value is put in its place once it is wrapped. -/
def adopt (place : Place) (path : List Bytes) (taking : Taking) (copied : Bool) (pending : Nat)
    (holders : Holders) (forest : Forest) : Option Assigned :=
  let emptied (holders : Holders) (forest : Forest) : Option Assigned :=
    if taking = .other then
      (if copied then forest.release holders.taken else some forest).map fun freed =>
        ⟨.ok, none, { holders with taken := none }, freed⟩
    else some ⟨.ok, none, holders, forest⟩
  if place.replaceRoot then
    (forest.release holders.root).bind fun freed =>
      emptied { holders with root := some pending } freed
  else
    match holders.root, path.drop place.missing with
    | some root, key :: _ =>
        match forest.addChild objects root (path.take place.missing) key pending with
        | none => none
        | some (true, added) => emptied holders added
        | some (false, refused) =>
            (if copied then refused.release (some pending) else some refused).map fun freed =>
              ⟨.enomem, some "Failed to assign WorkflowValue path", holders, freed⟩
    | _, _ => none

/-- An ordinary assignment: the value is cloned or taken, wrapped in the missing objects and put
in its place. -/
def setInside (place : Place) (path : List Bytes) (source : JsonRef) (taking : Taking)
    (holders : Holders) (forest : Forest) : Option Assigned :=
  let copied := decide (taking ≠ .other) || place.replaceRoot ||
    decide (place.missing + 1 < path.length)
  let inner := path.drop (place.missing + if place.replaceRoot then 0 else 1)
  let wrapped (pending : Nat) (forest : Forest) : Option Assigned :=
    match wrapValue objects inner.reverse pending forest with
    | none => none
    | some (none, freed) =>
        some ⟨.enomem, some "Failed to create nested WorkflowValue object", holders, freed⟩
    | some (some outer, made) => adopt objects place path taking copied outer holders made
  if copied then
    match Json.findPath (forest.trees source.tree) source.path with
    | none => none
    | some value =>
        match forest.allocate value with
        | (none, asked) => some ⟨.enomem, some "Failed to clone WorkflowValue", holders, asked⟩
        | (some pending, created) => wrapped pending created
  else
    match holders.taken with
    | none => none
    | some pending => wrapped pending forest

/-- What a call of `set_value` is given. -/
abbrev SetValue := List (Option Bytes) → Option JsonRef → Taking → Holders → Forest → Option Assigned

/-- The parents are created on a document of its own, with an empty object for the last of
them. -/
def createParents (setValue : SetValue) (keys : List (Option Bytes)) (provisional : Option Nat)
    (forest : Forest) : Option Assigned :=
  if keys.length > 1 then
    match forest.allocate (.object []) with
    | (none, asked) =>
        some ⟨.enomem, some "Failed to create nested WorkflowValue object", ⟨provisional, none⟩,
          asked⟩
    | (some empty, created) =>
        (setValue keys.dropLast (some ⟨empty, []⟩) .other ⟨provisional, some empty⟩ created).bind
          fun parents => (parents.forest.release parents.holders.taken).map fun freed =>
            { parents with forest := freed }
  else some ⟨.ok, none, ⟨provisional, none⟩, forest⟩

/-- The document is assigned to a place in itself that has no parent yet. -/
def setSelf (setValue : SetValue) (place : Place) (keys : List (Option Bytes)) (tree : Json)
    (holders : Holders) (forest : Forest) : Option Assigned :=
  match forest.allocate (if place.replaceRoot then .object [] else tree) with
  | (none, asked) => some ⟨.enomem, some "Failed to clone WorkflowValue", holders, asked⟩
  | (some provisional, created) =>
      (createParents setValue keys (some provisional) created).bind fun parents =>
        let put := if parents.code = .ok then
            setValue keys (parents.holders.root.map fun root => ⟨root, []⟩) .copy
              ⟨parents.holders.root, none⟩ parents.forest
          else some parents
        put.bind fun last =>
          if last.code = .ok then
            (last.forest.release holders.root).map fun freed =>
              ⟨.ok, none, { holders with root := last.holders.root }, freed⟩
          else
            (last.forest.release last.holders.root).map fun freed =>
              { last with holders, forest := freed }

/-- `set_value`; it calls itself for the parents and for the copy below them, and these calls do
not call it again. -/
def setValue : Nat → SetValue
  | 0, _, _, _, _, _ => none
  | depth + 1, keys, source, taking, holders, forest =>
      match source, validPath keys with
      | some source, some path =>
          if path = [] then setRoot source taking holders forest
          else
            match placeOf (holders.root.bind forest.trees) path with
            | .error text => some ⟨.einval, some text, holders, forest⟩
            | .ok place =>
                if holders.root = some source.tree ∧ source.path = [] ∧
                    (place.replaceRoot = true ∨ place.missing + 1 < path.length) then
                  match forest.trees source.tree with
                  | none => none
                  | some tree => setSelf (setValue depth) place keys tree holders forest
                else setInside objects place path source taking holders forest
      | _, _ => some ⟨.einval, some "Invalid WorkflowValue path or source", holders, forest⟩

/-- `praktor_value_set_copy`. -/
def praktorValueSetCopy (keys : List (Option Bytes)) (source : Option JsonRef) (root : Option Nat)
    (forest : Forest) : Option Assigned :=
  setValue objects 2 keys source .copy ⟨root, none⟩ forest

/-- `praktor_value_set_take`, with the value in a variable of its own. -/
def praktorValueSetTake (keys : List (Option Bytes)) (root taken : Option Nat) (forest : Forest) :
    Option Assigned :=
  setValue objects 2 keys (taken.map fun tree => ⟨tree, []⟩) .other ⟨root, taken⟩ forest

/-- `praktor_value_set_take`, with the document's own variable. -/
def praktorValueSetTakeRoot (keys : List (Option Bytes)) (root : Option Nat) (forest : Forest) :
    Option Assigned :=
  setValue objects 2 keys (root.map fun tree => ⟨tree, []⟩) .root ⟨root, none⟩ forest

end Assignment

end Praktor.Documents
