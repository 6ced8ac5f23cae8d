/-
# The editor schema of the workflow contract

`praktor_schema_project` copies the policy of the editor and joins to it what the interface
contract says of each message: the shape of the message Workflow at the root, and that of any
other message at its definition.

The contract, the kinds its fields resolve to and the parser of JSON literals belong to other
packages.  Allocation is taken to succeed, except where a missing text is reported as if it had
failed.
-/

import Praktor.Data.JsonOverlay

namespace Praktor.Schema

open Praktor.Data Praktor.Data.Json

/-- `PROJECTION_MAX_DEPTH`. -/
def projectionMaxDepth : Nat := 128

/-! ## Contracts -/

/-- The kinds of data that a field resolves to. -/
inductive DataKind
  | bool
  | sint
  | uint
  | float
  | string
  | struct
  | sequence
  | other
  deriving DecidableEq, Repr

/-- `IdlConstraint`. -/
structure IdlConstraint where
  kind : Bytes
  value : Option Bytes := none
  minimum : Option Bytes := none
  maximum : Option Bytes := none
  pattern : Option Bytes := none

/-- `IdlAnnotation`. -/
structure IdlAnnotation where
  name : Bytes
  arguments : List Bytes

/-- `IdlField`; a collection is a list or something else. -/
structure IdlField where
  name : Bytes
  typeName : Bytes
  innerType : Option Bytes := none
  isList : Bool := false
  nullable : Bool := false
  isOptional : Bool := false
  constraints : List IdlConstraint := []
  defaultValue : Option Bytes := none
  annotations : List IdlAnnotation := []

/-- `IdlDataDecl`; a declaration is a message or something else. -/
structure IdlDataDecl where
  name : Bytes
  isMessage : Bool
  annotationCount : Nat
  fields : List IdlField

/-- `IdlContract`. -/
structure IdlContract where
  serviceCount : Nat
  channelCount : Nat
  componentCount : Nat
  data : List IdlDataDecl

/-- `idl_contract_find_data`. -/
def IdlContract.findData (contract : IdlContract) (name : Bytes) : Option IdlDataDecl :=
  contract.data.find? fun decl => decl.name = name

/-- What the projection takes from the packages around it. -/
structure SchemaLibrary where
  /-- `schema_cmeta_field_resolve`. -/
  resolve : IdlContract → IdlField → Option DataKind
  /-- `json_parse`. -/
  parse : Bytes → Option Json
  parse_distinct : ∀ text value, parse text = some value → value.Distinct

/-- The members of an object. -/
abbrev Members := List (Bytes × Json)

/-- `projection` after its first failure, which is one of memory or of the input. -/
structure SchemaFailure where
  ofMemory : Bool
  message : Bytes
  deriving DecidableEq, Repr

/-- The status of a failure. -/
def SchemaFailure.status (failure : SchemaFailure) : Salts :=
  if failure.ofMemory then .enomem else .einval

/-- `fail` with `SALTS_EINVAL`. -/
def fail {α : Type} (message : String) (detail : Bytes) : Except SchemaFailure α :=
  .error ⟨false, ascii message ++ detail⟩

/-! ## Shapes -/

/-- `text` with a value that is there. -/
def text (key : String) (value : Bytes) (shape : Members) : Members :=
  insertMember (ascii key) (.string value) shape

/-- `literal`. -/
def literal (library : SchemaLibrary) (key : String) (value : Option Bytes) (shape : Members) :
    Except SchemaFailure Members :=
  match value.bind library.parse with
  | none => fail "Invalid IDL JSON literal: " (ascii key)
  | some parsed => .ok (insertMember (ascii key) parsed shape)

/-- The literal of a bound that is there. -/
def optionalLiteral (library : SchemaLibrary) (key : String) (value : Option Bytes)
    (shape : Members) : Except SchemaFailure Members :=
  if value.isSome then literal library key value shape else .ok shape

section Shapes

variable (library : SchemaLibrary) (contract : IdlContract)

/-- One constraint of a field. -/
def addConstraint (kind : DataKind) (shape : Members) (constraint : IdlConstraint) :
    Except SchemaFailure Members :=
  if constraint.kind = ascii "min" then literal library "minimum" constraint.value shape
  else if constraint.kind = ascii "max" then literal library "maximum" constraint.value shape
  else if constraint.kind = ascii "size" then
    if kind = .string then do
      let shape ← optionalLiteral library "minLength" constraint.minimum shape
      optionalLiteral library "maxLength" constraint.maximum shape
    else if kind = .sequence then do
      let shape ← optionalLiteral library "minItems" constraint.minimum shape
      optionalLiteral library "maxItems" constraint.maximum shape
    else fail "Size constraint requires a string or list" []
  else if constraint.kind = ascii "pattern" then
    match constraint.pattern with
    | some pattern => .ok (text "pattern" pattern shape)
    | none => .error ⟨true, ascii "Cannot allocate schema field: pattern"⟩
  else fail "Unsupported IDL constraint: " constraint.kind

/-- The type of a field; `items` is the shape of the elements of a list. -/
def typeShape (field : IdlField) (items : Bytes → Except SchemaFailure Members) :
    DataKind → Except SchemaFailure Members
  | .bool => .ok (text "type" (ascii "boolean") [])
  | .sint => .ok (text "type" (ascii "integer") [])
  | .uint => .ok (text "type" (ascii "integer") [])
  | .float => .ok (text "type" (ascii "number") [])
  | .string => .ok (text "type" (ascii "string") [])
  | .struct =>
      if (contract.findData field.typeName).isNone then
        fail "Unknown IDL record reference" []
      else if field.typeName = ascii "Workflow" then .ok (text "$ref" (ascii "#") [])
      else .ok (text "$ref" (ascii "#/$defs/" ++ field.typeName) [])
  | .sequence =>
      match field.isList, field.innerType with
      | true, some inner => do
          let shape ← items inner
          .ok (insertMember (ascii "items") (.object shape) (text "type" (ascii "array") []))
      | _, _ => fail "Only IDL lists are supported by the editor projection" []
  | .other => fail "Unsupported IDL shape in editor projection: " field.name

/-- `field_shape`, counting the levels that are left instead of the depth. -/
def fieldShape : Nat → IdlField → Except SchemaFailure Members
  | 0, _ => fail "IDL shape nesting limit exceeded" []
  | levels + 1, field =>
      match library.resolve contract field with
      | none => fail "Unresolved IDL field: " field.name
      | some kind => do
          let shape ← typeShape contract field
            (fun inner => fieldShape levels { name := field.name, typeName := inner }) kind
          if field.nullable then
            fail "Nullable IDL fields need an explicit editor projection" []
          else
            let shape ← field.constraints.foldlM (addConstraint library kind) shape
            match field.defaultValue with
            | none => .ok shape
            | some value =>
                if kind = .string then .ok (text "default" value shape)
                else literal library "default" (some value) shape

/-- One annotation of a field. -/
def readAnnotation (_ : Bytes) (note : IdlAnnotation) : Except SchemaFailure Bytes :=
  if note.name ≠ ascii "name" ∨ note.arguments.length ≠ 1 then
    fail "Unsupported IDL field annotation" []
  else .ok (note.arguments.head?.getD [])

/-- The name of a field in the schema. -/
def projectedName (field : IdlField) : Except SchemaFailure Bytes :=
  if (field.annotations.countP fun annotation => annotation.name = ascii "name") > 1 then
    fail "An IDL field may have only one projected name" []
  else field.annotations.foldlM readAnnotation field.name

/-- One field of a message: its property, and its name among the required ones. -/
def addField (state : Members × List Json) (field : IdlField) :
    Except SchemaFailure (Members × List Json) := do
  let name ← projectedName field
  if name = [] ∨ (state.1.lookup name).isSome then
    fail "Duplicate or empty projected IDL field name" []
  else
    let shape ← fieldShape library contract (projectionMaxDepth + 1) field
    .ok (insertMember name (.object shape) state.1,
      if field.isOptional then state.2 else state.2 ++ [.string name])

/-- `message_shape`. -/
def messageShape (decl : IdlDataDecl) : Except SchemaFailure Members := do
  let (properties, required) ← decl.fields.foldlM (addField library contract) ([], [])
  let schema := insertMember (ascii "properties") (.object properties)
    (text "type" (ascii "object") [])
  .ok (if required = [] then schema else insertMember (ascii "required") (.array required) schema)

end Shapes

/-! ## Merging -/

/-- A required name is compared with the names before it. -/
def checkPrior (name : Bytes) : List Json → Except SchemaFailure Unit
  | [] => .ok ()
  | .string prior :: rest =>
      if prior = name then fail "Duplicate IDL/editor required field: " name
      else checkPrior name rest
  | _ :: _ => fail "Required field must be a string" []

/-- One required name. -/
def addRequired (existing : List Json) (item : Json) : Except SchemaFailure (List Json) :=
  match item with
  | .string name => do
      checkPrior name existing
      .ok (existing ++ [item])
  | _ => fail "Required field must be a string" []

/-- One member of the source of `merge`, with what merges the objects one level deeper. -/
def mergeMember (deeper : Members → Members → Except SchemaFailure Members)
    (destination : Members) (member : Bytes × Json) : Except SchemaFailure Members :=
  match destination.lookup member.1, member.2 with
  | none, value => .ok (insertMember member.1 value destination)
  | some (.array existing), value =>
      if member.1 = ascii "required" then
        match value with
        | .array items => do
            let joined ← items.foldlM addRequired existing
            .ok (insertMember member.1 (.array joined) destination)
        | _ => fail "Required fields must be an array" []
      else fail "Editor overlay duplicates IDL-owned keyword: " member.1
  | some (.object existing), .object value => do
      let merged ← deeper existing value
      .ok (insertMember member.1 (.object merged) destination)
  | some _, _ => fail "Editor overlay duplicates IDL-owned keyword: " member.1

/-- `merge`, counting the levels that are left instead of the depth. -/
def merge : Nat → Members → Members → Except SchemaFailure Members
  | 0, _, _ => fail "Schema overlay nesting limit exceeded" []
  | levels + 1, destination, source => source.foldlM (mergeMember (merge levels)) destination

/-! ## The projection -/

section Project

variable (library : SchemaLibrary) (contract : IdlContract)

/-- One declaration: its shape is merged at its destination. -/
def projectDecl (result : Members) (decl : IdlDataDecl) : Except SchemaFailure Members :=
  if !decl.isMessage || decl.annotationCount ≠ 0 then
    fail "Editor projection requires unannotated IDL messages" []
  else do
    let shape ← messageShape library contract decl
    if decl.name = ascii "Workflow" then merge (projectionMaxDepth + 1) result shape
    else
      match result.lookup (ascii "$defs") with
      | some (.object definitions) =>
          match definitions.lookup decl.name with
          | some (.object destination) => do
              let merged ← merge (projectionMaxDepth + 1) destination shape
              .ok (insertMember (ascii "$defs")
                (.object (insertMember decl.name (.object merged) definitions)) result)
          | _ => fail "IDL message has no editor policy: " decl.name
      | _ => fail "IDL message has no editor policy: " decl.name

/-- The projection of a contract that was parsed. -/
def projectContract (editor : Members) : Except SchemaFailure Members :=
  if (contract.findData (ascii "Workflow")).isNone then
    fail "Workflow IDL and editor definitions are required" []
  else if contract.serviceCount ≠ 0 ∨ contract.channelCount ≠ 0 ∨ contract.componentCount ≠ 0 then
    fail "Editor projection accepts data contracts only" []
  else contract.data.foldlM (projectDecl library contract) editor

end Project

/-- What `idl_contract_parse` returns: a contract, or a failure that may be one of memory. -/
abbrev ParsedContract := Except (Bool × Bytes) IdlContract

/-- What a call leaves: its status, its diagnostic, the output and the policy it was given. -/
structure ProjectCall where
  status : Salts
  message : Bytes
  out : Option Json
  editor : Json

/-- The result of `praktor_schema_project`. -/
def projectEditor (library : SchemaLibrary) (parsed : ParsedContract) (editor : Json) :
    Except SchemaFailure Json :=
  match editor with
  | .object members =>
      match members.lookup (ascii "$defs"), parsed with
      | some (.object _), .ok contract =>
          (projectContract library contract members).map Json.object
      | some (.object _), .error (memory, message) =>
          .error ⟨memory, ascii "Invalid workflow IDL: " ++ message⟩
      | _, _ => fail "Workflow IDL and editor definitions are required" []
  | _ => fail "Workflow IDL and editor definitions are required" []

/-- `praktor_schema_project` with an output to write to. -/
def praktorSchemaProject (library : SchemaLibrary) (parsed : ParsedContract) (editor : Json) :
    ProjectCall :=
  match projectEditor library parsed editor with
  | .ok result => ⟨.ok, [], some result, editor⟩
  | .error failure => ⟨failure.status, failure.message, none, editor⟩

end Praktor.Schema
