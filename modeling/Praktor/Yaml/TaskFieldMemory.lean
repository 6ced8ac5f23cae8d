/-
# The strings of task fields

`praktor_yaml_task_fields_create` with all of its kinds, with its memory.  Each string that it
retains has a serial number; it is held by a local, by the entry that is being built, by a list, a
map or a field of the owner, or it is among those that a dispose function is about to release.
Every allocation may fail, and every state on the way is kept.

Which child of a mapping an entry was read from, and which strings were released, is recorded
along the way; nothing that the functions do depends on it.
-/

import Praktor.Data.Sizes
import Praktor.Math.Course
import Praktor.Yaml.TaskFields

namespace Praktor.Yaml

open Praktor.Data Praktor.Math Praktor.Math.Coursed

/-! ## Memory -/

/-- A retained string. -/
structure Tstr where
  serial : Nat
  text : CString
  deriving DecidableEq

/-- `task_entry`. -/
structure TaskEntry where
  key : Tstr
  value : Option Tstr
  values : List Tstr

/-- The strings of an entry. -/
def TaskEntry.texts (entry : TaskEntry) : List Tstr :=
  entry.key :: (entry.value.toList ++ entry.values)

/-- What the value of an entry says. -/
structure EntryContents where
  value : Option CString
  values : List CString
  deriving DecidableEq

def TaskEntry.contents (entry : TaskEntry) : EntryContents :=
  ⟨entry.value.map Tstr.text, entry.values.map Tstr.text⟩

/-- An entry as it was read: the child of the mapping, its key and its value. -/
structure Occurrence where
  child : YamlNode
  key : CString
  contents : EntryContents

/-- `task_map`.  The index borrows the keys of the entries.  The mappings that were read into the
map and the entries as they were read are recorded. -/
structure OwnedMap where
  entries : List TaskEntry
  index : List (Tstr × Nat)
  initialized : Bool
  sources : List YamlNode
  stored : List Occurrence

def OwnedMap.empty : OwnedMap := ⟨[], [], false, [], []⟩

/-- The strings of a map. -/
def OwnedMap.texts (map : OwnedMap) : List Tstr := map.entries.flatMap TaskEntry.texts

/-- The optional texts of the owner. -/
inductive TextField
  | as
  | indexVariable
  | itemsVariable
  | name
  | command
  | timeout
  | when
  | uses
  deriving DecidableEq, Repr

def TextField.all : List TextField :=
  [.as, .indexVariable, .itemsVariable, .name, .command, .timeout, .when, .uses]

/-- The maps of the owner. -/
inductive MapField
  | strings
  | matrix
  deriving DecidableEq, Repr

def MapField.all : List MapField := [.strings, .matrix]

/-- `praktor_yaml_task_fields` with the locals of its readers: the string that was decoded, the
entry that is being built, and the strings that are about to be released. -/
structure FieldsMemory where
  retainedBytes : Nat
  expandedStrings : Nat
  lists : Fin 3 → List Tstr
  maps : MapField → OwnedMap
  texts : TextField → Option Tstr
  sequence : Bool
  hasTimeout : Bool
  hasWhen : Bool
  text : Option Tstr
  entry : Option TaskEntry
  disposing : List Tstr
  decoded : Nat
  released : List Tstr
  attempts : Nat

namespace FieldsMemory

/-- The owner as `calloc` leaves it. -/
def blank : FieldsMemory where
  retainedBytes := 0
  expandedStrings := 0
  lists _ := []
  maps _ := .empty
  texts _ := none
  sequence := false
  hasTimeout := false
  hasWhen := false
  text := none
  entry := none
  disposing := []
  decoded := 0
  released := []
  attempts := 0

/-- The strings that the owner, its readers and its dispose functions hold. -/
def owned (fields : FieldsMemory) : List Tstr :=
  fields.disposing ++ (fields.text.toList ++ (fields.entry.toList.flatMap TaskEntry.texts ++
    ((List.finRange 3).flatMap fields.lists ++
      (MapField.all.flatMap (fun field => (fields.maps field).texts) ++
        TextField.all.flatMap (fun field => (fields.texts field).toList)))))

/-- `tf_release` of the next string. -/
def tfRelease (fields : FieldsMemory) : FieldsMemory :=
  match fields.disposing with
  | [] => fields
  | text :: rest =>
      { fields with
        disposing := rest
        retainedBytes := sizeSub fields.retainedBytes (sizeAdd text.text.length 1)
        released := fields.released ++ [text] }

/-- Retain a decoded string. -/
def retain (fields : FieldsMemory) (text : CString) : FieldsMemory :=
  { fields with
    text := some ⟨fields.decoded, text⟩
    retainedBytes := sizeAdd fields.retainedBytes (sizeAdd text.length 1)
    decoded := fields.decoded + 1 }

/-- Give up the decoded string. -/
def discardText (fields : FieldsMemory) : FieldsMemory :=
  { fields with text := none, disposing := fields.disposing ++ fields.text.toList }

/-- Give up the entry. -/
def discardEntry (fields : FieldsMemory) : FieldsMemory :=
  { fields with
    entry := none
    disposing := fields.disposing ++ fields.entry.toList.flatMap TaskEntry.texts }

/-- Give up a field. -/
def discardField (field : TextField) (fields : FieldsMemory) : FieldsMemory :=
  { fields with
    texts := Function.update fields.texts field none
    disposing := fields.disposing ++ (fields.texts field).toList }

/-- Give up everything that the owner has. -/
def discardAll (fields : FieldsMemory) : FieldsMemory :=
  { fields with
    lists := fun _ => []
    maps := fun field => { fields.maps field with entries := [], index := [], stored := [] }
    texts := fun _ => none
    disposing := fields.disposing ++ ((List.finRange 3).flatMap fields.lists ++
      (MapField.all.flatMap (fun field => (fields.maps field).texts) ++
        TextField.all.flatMap (fun field => (fields.texts field).toList))) }

/-- The decoded string becomes the key of a new entry. -/
def keepKey (fields : FieldsMemory) : FieldsMemory :=
  { fields with text := none, entry := fields.text.map fun key => ⟨key, none, []⟩ }

/-- The decoded string becomes the value of the entry. -/
def keepValue (fields : FieldsMemory) : FieldsMemory :=
  { fields with
    text := none
    entry := fields.entry.map fun entry => { entry with value := fields.text } }

/-- The contents of a list. -/
def list (fields : FieldsMemory) : ListTarget → List Tstr
  | .owner slot => fields.lists slot
  | .entry => (fields.entry.map TaskEntry.values).getD []

/-- The decoded string is appended to a list. -/
def keepItem (target : ListTarget) (fields : FieldsMemory) : FieldsMemory :=
  match target with
  | .owner slot =>
      { fields with
        text := none
        lists := Function.update fields.lists slot (fields.lists slot ++ fields.text.toList) }
  | .entry =>
      { fields with
        text := none
        entry := fields.entry.map fun entry =>
          { entry with values := entry.values ++ fields.text.toList } }

/-- The decoded string becomes a field. -/
def keepField (field : TextField) (fields : FieldsMemory) : FieldsMemory :=
  { fields with text := none, texts := Function.update fields.texts field fields.text }

/-- Change a map. -/
def withMap (fields : FieldsMemory) (field : MapField) (change : OwnedMap → OwnedMap) :
    FieldsMemory :=
  { fields with maps := Function.update fields.maps field (change (fields.maps field)) }

end FieldsMemory

namespace OwnedMap

/-- The entry is new. -/
def push (child : YamlNode) (entry : TaskEntry) (map : OwnedMap) : OwnedMap :=
  { map with
    entries := map.entries ++ [entry]
    stored := map.stored ++ [⟨child, entry.key.text, entry.contents⟩] }

/-- The last entry gets into the index. -/
def putLast (map : OwnedMap) : OwnedMap :=
  { map with
    index := map.index ++ (map.entries.getLast?.toList.map fun entry =>
      (entry.key, map.entries.length - 1)) }

/-- The entry takes the place of the value of an entry with its key. -/
def replace (child : YamlNode) (place : Nat) (candidate : TaskEntry) (map : OwnedMap) : OwnedMap :=
  { map with
    entries := map.entries.modify place fun entry =>
      { entry with value := candidate.value, values := candidate.values }
    stored := map.stored ++ [⟨child, candidate.key.text, candidate.contents⟩] }

/-- `map_get_const`: the keys are compared by their texts. -/
def find (map : OwnedMap) (key : CString) : Option Nat :=
  (map.index.find? fun row => row.1.text = key).map Prod.snd

end OwnedMap

/-- What is left of a candidate whose value went to an entry, with what the entry had. -/
def FieldsMemory.replaceEntry (field : MapField) (child : YamlNode) (place : Nat)
    (fields : FieldsMemory) : FieldsMemory :=
  match fields.entry with
  | none => fields
  | some candidate =>
      { fields.withMap field (OwnedMap.replace child place candidate) with
        entry := none
        disposing := fields.disposing ++ candidate.key ::
          ((fields.maps field).entries[place]?.toList.flatMap fun entry =>
            entry.value.toList ++ entry.values) }

/-- The candidate becomes the last entry. -/
def FieldsMemory.pushEntry (field : MapField) (child : YamlNode) (fields : FieldsMemory) :
    FieldsMemory :=
  match fields.entry with
  | none => fields
  | some candidate =>
      { fields.withMap field (OwnedMap.push child candidate) with entry := none }

/-! ## Readers -/

/-- Why a reader fails. -/
inductive TaskFailure
  | memory
  | message (text : Bytes)

/-- A reader of task fields with its memory. -/
abbrev FieldsReader := Coursed FieldsMemory TaskFailure

namespace FieldsReader

open FieldsMemory

variable (allocates : Nat → Bool) (document : YamlDocument)

/-- An allocation, which may fail. -/
def allocated : FieldsReader Bool := do
  let fields ← current
  step fun fields => { fields with attempts := fields.attempts + 1 }
  pure (allocates fields.attempts)

/-- What the other functions return, whose memory may fail too. -/
def raise {α : Type} (result : Except Bytes α) : FieldsReader α := do
  if ← allocated allocates then
    match result with
    | .ok value => pure value
    | .error text => throw (.message text)
  else throw .memory

/-- `tf_error`. -/
def tfError {α : Type} (node : YamlNode) (message : Bytes) : FieldsReader α :=
  raise allocates (document.failAt node message)

/-- `tf_limit`. -/
def tfLimit {α : Type} (node : YamlNode) (unit : String) (maximum : Nat) : FieldsReader α :=
  tfError allocates document node (ascii "YAML task " ++ ascii unit ++
    ascii " exceeds maximum of " ++ ascii (toString maximum))

/-- Give strings up and release them one by one. -/
def dispose (discard : FieldsMemory → FieldsMemory) : FieldsReader PUnit := do
  step discard
  let fields ← current
  fields.disposing.forM fun _ => step tfRelease

/-- `tf_decode`. -/
def tfDecode (node : YamlNode) (key : Bool) : FieldsReader PUnit := do
  let fields ← current
  if fields.expandedStrings = taskMaxStrings then
    tfLimit allocates document node "expanded string count" taskMaxStrings
  else
    step fun fields => { fields with expandedStrings := fields.expandedStrings + 1 }
    let text ← raise allocates (document.fieldDecode node key)
    let fields ← current
    if text.length ≥ sizeSub taskMaxBytes fields.retainedBytes then
      tfLimit allocates document node "retained text bytes" taskMaxBytes
    else step fun fields => fields.retain text

/-- `tf_map_init`. -/
def tfMapInit (field : MapField) : FieldsReader PUnit := do
  let fields ← current
  if (fields.maps field).initialized then pure ⟨⟩
  else if ← allocated allocates then
    step fun fields => fields.withMap field fun map => { map with initialized := true }
  else throw .memory

/-- `tf_store`. -/
def tfStore (field : MapField) (child : YamlNode) : FieldsReader PUnit := do
  guarded (tfMapInit allocates field) (dispose discardEntry)
  let fields ← current
  match (fields.entry.bind fun entry => (fields.maps field).find entry.key.text) with
  | some place => dispose (replaceEntry field child place)
  | none =>
      if (fields.maps field).entries.length = taskMaxEntries then
        dispose discardEntry
        tfLimit allocates document child "map entry count" taskMaxEntries
      else if ← allocated allocates then
        step (pushEntry field child)
        if ← allocated allocates then step fun fields => fields.withMap field OwnedMap.putLast
        else throw .memory
      else
        dispose discardEntry
        throw .memory

/-- `tf_append`. -/
def tfAppend (target : ListTarget) (skipEmpty : Bool) (node : YamlNode) : FieldsReader PUnit := do
  tfDecode allocates document node false
  let fields ← current
  if skipEmpty && fields.text.all fun text => text.text.length = 0 then dispose discardText
  else if (fields.list target).length = taskMaxEntries then
    dispose discardText
    tfLimit allocates document node "list entry count" taskMaxEntries
  else if ← allocated allocates then step (keepItem target)
  else
    dispose discardText
    throw .memory

/-- `tf_list`. -/
def tfList (target : ListTarget) (node : YamlNode) : FieldsReader PUnit :=
  if document.isSeq node then
    (document.children node).forM (tfAppend allocates document target false)
  else if document.hasVal node then tfAppend allocates document target true node
  else
    tfError allocates document node
      (ascii "Expected sequence or scalar when converting to string list")

/-- The value of an entry of a matrix. -/
def matrixValues (child : YamlNode) : FieldsReader PUnit := do
  if ← allocated allocates then
    tfList allocates document .entry child
    let fields ← current
    if fields.list .entry = [] then
      tfError allocates document child (ascii "each.matrix dimension '" ++
        ((fields.entry.map fun entry => entry.key.text.bytes).getD []) ++ ascii "' must not be empty")
    else pure ⟨⟩
  else throw .memory

/-- The value of an entry of a map of strings. -/
def stringValue (child : YamlNode) : FieldsReader PUnit := do
  tfDecode allocates document child false
  step keepValue

/-- The value of an entry. -/
def entryValue (child : YamlNode) : MapField → FieldsReader PUnit
  | .strings => stringValue allocates document child
  | .matrix => matrixValues allocates document child

/-- One round of `tf_map`. -/
def tfEntry (field : MapField) (child : YamlNode) : FieldsReader PUnit := do
  tfDecode allocates document child true
  step keepKey
  guarded (entryValue allocates document child field) (dispose discardEntry)
  tfStore allocates document field child

/-- The message of `tf_map` for another node. -/
def mapMessage : MapField → String
  | .strings => "Expected mapping when converting to string map"
  | .matrix => "each.matrix must be a map"

/-- `tf_map`. -/
def tfMap (field : MapField) (node : YamlNode) : FieldsReader PUnit := do
  if !document.isMap node then tfError allocates document node (ascii (mapMessage field))
  else
    step fun fields => fields.withMap field fun map => { map with sources := map.sources ++ [node] }
    (document.children node).forM (tfEntry allocates document field)

/-- Read a member of a mapping that has it. -/
def member (node : YamlNode) (key : String) (read : YamlNode → FieldsReader PUnit) :
    FieldsReader PUnit := do
  if document.has node (ascii key) then
    let field ← raise allocates (.ok (document.fieldGet node (ascii key)))
    read field
  else pure ⟨⟩

/-- Decode a string into a field. -/
def decodeField (field : TextField) (node : YamlNode) : FieldsReader PUnit := do
  tfDecode allocates document node false
  step (keepField field)

/-- `tf_optional`. -/
def tfOptional (node : YamlNode) (key : String) (field : TextField) : FieldsReader PUnit :=
  member allocates document node key (decodeField allocates document field)

/-- Whether a field has an empty text. -/
def isEmpty (fields : FieldsMemory) (field : TextField) : Bool :=
  match fields.texts field with
  | some text => text.text.length = 0
  | none => false

/-- An empty name is as good as none. -/
def dropEmptyAs : FieldsReader PUnit := do
  let fields ← current
  if isEmpty fields .as then dispose (discardField .as) else pure ⟨⟩

/-- `tf_each`. -/
def tfEach (node : YamlNode) : FieldsReader PUnit := do
  if !document.isMap node then tfError allocates document node (ascii "each must be a map")
  else
    raise allocates (document.checkKeys node ["items", "matrix", "as", "index_variable"])
    member allocates document node "items" (tfList allocates document (.owner 0))
    member allocates document node "matrix" (tfMap allocates document .matrix)
    let fields ← current
    if fields.lists 0 ≠ [] ∧ (fields.maps .matrix).entries ≠ [] then
      tfError allocates document node (ascii "each cannot define both 'items' and 'matrix'")
    else if fields.lists 0 = [] ∧ (fields.maps .matrix).entries = [] then
      tfError allocates document node (ascii "each requires either 'items' or 'matrix'")
    else
      tfOptional allocates document node "as" .as
      dropEmptyAs
      tfOptional allocates document node "index_variable" .indexVariable

/-- One target of `tf_triggers`. -/
def triggerName (slot : Fin 3) (item : YamlNode) : FieldsReader PUnit := do
  if !document.hasVal item then
    tfError allocates document item (ascii "Trigger action must be a task name (string)")
  else
    tfAppend allocates document (.owner slot) false item
    let fields ← current
    if ((fields.lists slot).getLast?.map fun text => text.text.length) = some 0 then
      tfError allocates document item (ascii "Trigger action task name cannot be empty")
    else pure ⟨⟩

/-- One group of `tf_triggers`. -/
def triggerGroup (slot : Fin 3) (field : YamlNode) : FieldsReader PUnit := do
  if !document.isSeq field then
    tfError allocates document field (ascii "Trigger action list must be a sequence")
  else
    (document.children field).forM (triggerName allocates document slot)
    let fields ← current
    if fields.lists slot = [] then
      tfError allocates document field
        (ascii "Trigger action list must contain at least one task name")
    else pure ⟨⟩

/-- `tf_triggers`. -/
def tfTriggers (node : YamlNode) : FieldsReader PUnit := do
  if !document.isMap node then tfError allocates document node (ascii "triggers must be a map")
  else
    raise allocates (document.checkKeys node ["on_success", "on_failure", "on_complete"])
    member allocates document node "on_success" (triggerGroup allocates document 0)
    member allocates document node "on_failure" (triggerGroup allocates document 1)
    member allocates document node "on_complete" (triggerGroup allocates document 2)
    if ["on_success", "on_failure", "on_complete"].all fun key => !document.has node (ascii key) then
      tfError allocates document node
        (ascii "triggers block must contain at least one action list")
    else pure ⟨⟩

/-- A string that may not be empty. -/
def nonEmptyField (field : TextField) (node : YamlNode) (message : String) :
    FieldsReader PUnit := do
  decodeField allocates document field node
  let fields ← current
  if isEmpty fields field then tfError allocates document node (ascii message) else pure ⟨⟩

/-- `tf_required`. -/
def tfRequired (node : YamlNode) (key missing empty : String) (field : TextField) :
    FieldsReader PUnit := do
  if document.has node (ascii key) then
    let child ← raise allocates (.ok (document.fieldGet node (ascii key)))
    nonEmptyField allocates document field child empty
  else tfError allocates document node (ascii missing)

/-- The command of a template, a list or a string. -/
def templateCommand (field : YamlNode) : FieldsReader PUnit := do
  step fun fields => { fields with sequence := document.isSeq field }
  if document.isSeq field then
    tfList allocates document (.owner 0) field
    let fields ← current
    if fields.lists 0 = [] then
      tfError allocates document field (ascii "dynamic_tasks template 'command' cannot be empty")
    else if (fields.lists 0).any fun text => text.text.length = 0 then
      tfError allocates document field
        (ascii "dynamic_tasks template command entries cannot be empty")
    else pure ⟨⟩
  else
    nonEmptyField allocates document .command field
      "dynamic_tasks template 'command' cannot be empty"

/-- The template of `tf_dynamic`. -/
def tfTemplate (template : YamlNode) : FieldsReader PUnit := do
  if !document.isMap template then
    tfError allocates document template (ascii "dynamic_tasks 'template' must be a map")
  else
    raise allocates
      (document.checkKeys template ["name", "command", "timeout", "when", "depends_on", "env"])
    tfRequired allocates document template "name" "dynamic_tasks template requires 'name'"
      "dynamic_tasks template 'name' cannot be empty" .name
    if document.has template (ascii "command") then
      let field ← raise allocates (.ok (document.fieldGet template (ascii "command")))
      templateCommand allocates document field
      step fun fields => { fields with
        hasTimeout := document.has template (ascii "timeout")
        hasWhen := document.has template (ascii "when") }
      tfOptional allocates document template "timeout" .timeout
      tfOptional allocates document template "when" .when
      member allocates document template "depends_on" (tfList allocates document (.owner 1))
      member allocates document template "env" (tfMap allocates document .strings)
    else
      tfError allocates document template (ascii "dynamic_tasks template requires 'command'")

/-- `tf_dynamic`. -/
def tfDynamic (node : YamlNode) : FieldsReader PUnit := do
  if !document.isMap node then
    tfError allocates document node (ascii "dynamic_tasks must be a map")
  else
    raise allocates (document.checkKeys node ["items_variable", "template"])
    tfRequired allocates document node "items_variable" "dynamic_tasks requires 'items_variable'"
      "dynamic_tasks 'items_variable' cannot be empty" .itemsVariable
    if document.has node (ascii "template") then
      let template ← raise allocates (.ok (document.fieldGet node (ascii "template")))
      tfTemplate allocates document template
    else tfError allocates document node (ascii "dynamic_tasks requires 'template'")

end FieldsReader

/-- `praktor_yaml_task_field_kind`. -/
inductive FieldsKind
  | stringList
  | stringMap
  | each
  | triggers
  | dynamicTasks
  | uses
  deriving DecidableEq, Repr

namespace FieldsReader

variable (allocates : Nat → Bool) (document : YamlDocument)

/-- The reader of a kind. -/
def ofKind (node : YamlNode) : FieldsKind → FieldsReader PUnit
  | .stringList => tfList allocates document (.owner 0) node
  | .stringMap => tfMap allocates document .strings node
  | .each => tfEach allocates document node
  | .triggers => tfTriggers allocates document node
  | .dynamicTasks => tfDynamic allocates document node
  | .uses => nonEmptyField allocates document .uses node "uses value cannot be empty"

/-- `praktor_yaml_task_fields_destroy`. -/
def praktorYamlTaskFieldsDestroy : FieldsReader PUnit := dispose FieldsMemory.discardAll

/-- `praktor_yaml_task_fields_create`. -/
def praktorYamlTaskFieldsCreate (kind : FieldsKind) (node : YamlNode) : FieldsReader PUnit := do
  if node.node.isNone then throw (.message (ascii "Invalid YAML task field argument"))
  else if ← allocated allocates then
    guarded (ofKind allocates document node kind) praktorYamlTaskFieldsDestroy
  else throw .memory

end FieldsReader

end Praktor.Yaml
