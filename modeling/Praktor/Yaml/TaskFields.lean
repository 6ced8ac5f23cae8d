/-
# Lists, maps, `each` and `triggers`

The readers of `yaml_task_fields.c` that task metadata uses.  A reader decodes strings
into an owner that counts them and the bytes it retains: every decoded string is counted
for good, while the bytes of a string that is not kept are given back.  The counts are
the state of the readers and survive a failure, which carries the text of its diagnostic.
-/

import Mathlib.Algebra.Order.Ring.Nat
import Mathlib.Logic.Function.Basic
import Praktor.Yaml.Document

namespace Praktor.Yaml

open Praktor.Data

/-- `PRAKTOR_YAML_TASK_MAX_ENTRIES`. -/
def taskMaxEntries : Nat := 4096

/-- `PRAKTOR_YAML_TASK_MAX_STRINGS`. -/
def taskMaxStrings : Nat := 16384

/-- `PRAKTOR_YAML_TASK_MAX_BYTES`. -/
def taskMaxBytes : Nat := 1024 * 1024

/-- `task_map`: the entries in the order of insertion, and the place of each key. -/
structure TaskMap (α : Type) where
  entries : List (CString × α)
  index : List (CString × Nat)

/-- A map without entries. -/
def TaskMap.empty {α : Type} : TaskMap α := ⟨[], []⟩

/-- `praktor_yaml_task_fields`.  The list `values` belongs to the matrix entry that is
being read. -/
structure TaskFields where
  retainedBytes : Nat
  expandedStrings : Nat
  lists : Fin 3 → List CString
  strings : TaskMap CString
  values : List CString
  matrix : TaskMap (List CString)
  itemName : Option CString
  indexVariable : Option CString

/-- The owner before anything is read. -/
def TaskFields.blank : TaskFields := ⟨0, 0, fun _ => [], .empty, [], .empty, none, none⟩

/-- The lists a reader appends to: one of the owner, or that of a matrix entry. -/
inductive ListTarget
  | owner (slot : Fin 3)
  | entry

/-- The contents of a list. -/
def TaskFields.list (fields : TaskFields) : ListTarget → List CString
  | .owner slot => fields.lists slot
  | .entry => fields.values

/-- Append a text to a list. -/
def TaskFields.push (fields : TaskFields) (text : CString) : ListTarget → TaskFields
  | .owner slot =>
      { fields with lists := Function.update fields.lists slot (fields.lists slot ++ [text]) }
  | .entry => { fields with values := fields.values ++ [text] }

/-- A reader of task fields. -/
abbrev TaskReader := ExceptT Bytes (StateM TaskFields)

namespace TaskReader

variable (document : YamlDocument)

/-- `tf_error`. -/
def error {α : Type} (node : YamlNode) (message : Bytes) : TaskReader α :=
  MonadExcept.ofExcept (document.failAt node message)

/-- `tf_limit`. -/
def limit {α : Type} (node : YamlNode) (unit : String) (maximum : Nat) : TaskReader α :=
  error document node (ascii "YAML task " ++ ascii unit ++ ascii " exceeds maximum of " ++
    ascii (toString maximum))

/-- `tf_release` of several texts. -/
def release (texts : List CString) : TaskReader Unit :=
  modify fun fields => { fields with
    retainedBytes := fields.retainedBytes - (texts.map fun text => text.length + 1).sum }

/-- `tf_decode`. -/
def decode (node : YamlNode) (key : Bool) : TaskReader CString := do
  let fields ← get
  if fields.expandedStrings = taskMaxStrings then
    limit document node "expanded string count" taskMaxStrings
  else
    set { fields with expandedStrings := fields.expandedStrings + 1 }
    let text ← MonadExcept.ofExcept (document.fieldDecode node key)
    if text.length ≥ taskMaxBytes - fields.retainedBytes then
      limit document node "retained text bytes" taskMaxBytes
    else
      modify fun fields => { fields with
        retainedBytes := fields.retainedBytes + (text.length + 1) }
      pure text

/-- `tf_store`: an entry whose key is known replaces the value of the first one, and the
order of insertion stays.  `texts` are the strings of a value. -/
def store {α : Type} (texts : α → List CString) (map : TaskMap α) (node : YamlNode)
    (key : CString) (value : α) : TaskReader (TaskMap α) := do
  match map.index.lookup key with
  | some place =>
      release (key :: (map.entries[place]?.toList.flatMap fun entry => texts entry.2))
      pure { map with entries := map.entries.modify place fun entry => (entry.1, value) }
  | none =>
      if map.entries.length = taskMaxEntries then
        release (key :: texts value)
        limit document node "map entry count" taskMaxEntries
      else pure ⟨map.entries ++ [(key, value)], map.index ++ [(key, map.entries.length)]⟩

/-- `tf_append`. -/
def append (target : ListTarget) (skipEmpty : Bool) (node : YamlNode) : TaskReader Unit := do
  let text ← decode document node false
  if skipEmpty && text.length = 0 then release [text]
  else
    let fields ← get
    if (fields.list target).length = taskMaxEntries then
      release [text]
      limit document node "list entry count" taskMaxEntries
    else set (fields.push text target)

/-- `tf_list`: a sequence, or a scalar that stands for a list of one. -/
def list (target : ListTarget) (node : YamlNode) : TaskReader Unit :=
  if document.isSeq node then (document.children node).forM (append document target false)
  else if document.hasVal node then append document target true node
  else error document node (ascii "Expected sequence or scalar when converting to string list")

/-- One round of `tf_map` for a map of strings. -/
def stringEntry (child : YamlNode) : TaskReader Unit := do
  let key ← decode document child true
  let value ← tryCatch (decode document child false) fun failure => do
    release [key]
    throw failure
  let fields ← get
  let map ← store document (fun value => [value]) fields.strings child key value
  modify fun fields => { fields with strings := map }

/-- One round of `tf_map` for a matrix. -/
def matrixEntry (child : YamlNode) : TaskReader Unit := do
  let key ← decode document child true
  modify fun fields => { fields with values := [] }
  let dimension : TaskReader Unit := do
    list document .entry child
    let fields ← get
    if fields.values = [] then
      error document child (ascii "each.matrix dimension '" ++ key.bytes ++
        ascii "' must not be empty")
  tryCatch dimension fun failure => do
    let fields ← get
    release (key :: fields.values)
    throw failure
  let fields ← get
  let map ← store document id fields.matrix child key fields.values
  modify fun fields => { fields with matrix := map }

/-- `tf_map`. -/
def map (entry : YamlNode → TaskReader Unit) (message : String) (node : YamlNode) :
    TaskReader Unit :=
  if document.isMap node then (document.children node).forM entry
  else error document node (ascii message)

/-- `tf_optional`. -/
def text (node : YamlNode) (key : Bytes) : TaskReader (Option CString) :=
  if document.has node key then
    some <$> decode document (document.fieldGet node key) false
  else pure none

/-- Read a member when the mapping has it. -/
def member (node : YamlNode) (key : String) (read : YamlNode → TaskReader Unit) :
    TaskReader Unit :=
  if document.has node (ascii key) then read (document.fieldGet node (ascii key)) else pure ()

/-- `tf_each`. -/
def each (node : YamlNode) : TaskReader Unit := do
  if !document.isMap node then error document node (ascii "each must be a map")
  else
    MonadExcept.ofExcept
      (document.checkKeys node ["items", "matrix", "as", "index_variable"])
    member document node "items" (list document (.owner 0))
    member document node "matrix"
      (map document (matrixEntry document) "each.matrix must be a map")
    let fields ← get
    if fields.lists 0 ≠ [] ∧ fields.matrix.entries ≠ [] then
      error document node (ascii "each cannot define both 'items' and 'matrix'")
    else if fields.lists 0 = [] ∧ fields.matrix.entries = [] then
      error document node (ascii "each requires either 'items' or 'matrix'")
    else
      let name ← text document node (ascii "as")
      -- An empty name is as good as none.
      match name with
      | some name =>
          if name.length = 0 then release [name]
          else modify fun fields => { fields with itemName := some name }
      | none => pure ()
      let variableName ← text document node (ascii "index_variable")
      modify fun fields => { fields with indexVariable := variableName }

/-- One target of `tf_triggers`. -/
def triggerName (slot : Fin 3) (item : YamlNode) : TaskReader Unit := do
  if !document.hasVal item then
    error document item (ascii "Trigger action must be a task name (string)")
  else
    append document (.owner slot) false item
    let fields ← get
    if (fields.lists slot).getLast?.map CString.length = some 0 then
      error document item (ascii "Trigger action task name cannot be empty")

/-- One group of `tf_triggers`. -/
def triggerGroup (node : YamlNode) (slot : Fin 3) (key : String) : TaskReader Unit :=
  member document node key fun field => do
    if !document.isSeq field then
      error document field (ascii "Trigger action list must be a sequence")
    else
      (document.children field).forM (triggerName document slot)
      let fields ← get
      if fields.lists slot = [] then
        error document field (ascii "Trigger action list must contain at least one task name")

/-- `tf_triggers`. -/
def triggers (node : YamlNode) : TaskReader Unit := do
  if !document.isMap node then error document node (ascii "triggers must be a map")
  else
    MonadExcept.ofExcept (document.checkKeys node ["on_success", "on_failure", "on_complete"])
    triggerGroup document node 0 "on_success"
    triggerGroup document node 1 "on_failure"
    triggerGroup document node 2 "on_complete"
    if ["on_success", "on_failure", "on_complete"].all fun key => !document.has node (ascii key) then
      error document node (ascii "triggers block must contain at least one action list")

end TaskReader

/-- `praktor_yaml_task_field_kind`, as far as task metadata uses it. -/
inductive TaskFieldKind
  | stringList
  | stringMap
  | each
  | triggers
  deriving DecidableEq, Repr

/-- The reader of a kind. -/
def TaskFieldKind.reader (document : YamlDocument) (node : YamlNode) :
    TaskFieldKind → TaskReader Unit
  | .stringList => TaskReader.list document (.owner 0) node
  | .stringMap =>
      TaskReader.map document (TaskReader.stringEntry document)
        "Expected mapping when converting to string map" node
  | .each => TaskReader.each document node
  | .triggers => TaskReader.triggers document node

/-- `praktor_yaml_task_fields_create`. -/
def taskFieldsCreate (document : YamlDocument) (kind : TaskFieldKind) (node : YamlNode) :
    Except Bytes TaskFields :=
  if node.node.isNone then .error (ascii "Invalid YAML task field argument")
  else
    match (kind.reader document node).run.run .blank with
    | (.error message, _) => .error message
    | (.ok _, fields) => .ok fields

end Praktor.Yaml
