/-
# Parsed YAML documents

What `yaml_document.c` and `yaml_fields.c` make of a document.  The parser is a separate
package, and a document is the graph it returns: nodes refer to one another by their
place, aliases may share nodes and may close cycles.  Lookup by key is the parser's own
and compares the text of the source, so it is part of the document; a scalar is here the
C string it is decoded to.

A failed reader returns the text of its diagnostic.  Allocation is taken to succeed, and
then every failure has the status `EINVAL`.
-/

import Praktor.Data.Bytes

namespace Praktor.Yaml

open Praktor.Data

/-- The kinds of `cyaml_node_t`. -/
inductive YamlContent
  | scalar (text : CString)
  | sequence (items : List Nat)
  | mapping (pairs : List (Nat × Nat))
  | alias (target : Option Nat)

/-- `cyaml_node_t` with the start of its span; line `0` is no position. -/
structure YamlCell where
  content : YamlContent
  line : Nat
  column : Nat

/-- `praktor_yaml_document`: the nodes, the root, and `cyaml_get`. -/
structure YamlDocument where
  cells : List YamlCell
  root : Option Nat
  lookup : Nat → Bytes → Option Nat

/-- `praktor_yaml_node`: a node, and the key under which it was reached. -/
structure YamlNode where
  node : Option Nat
  key : Option Nat
  deriving DecidableEq

/-- The node that is no node of a document. -/
def YamlNode.zero : YamlNode := ⟨none, none⟩

/-- `PRAKTOR_YAML_MAX_ALIAS_HOPS`. -/
def maxAliasHops : Nat := 128

/-- `PRAKTOR_YAML_LOCATION_DEPTH`. -/
def locationDepth : Nat := 32

/-- `PRAKTOR_YAML_MAX_PARAMETER_LENGTH`. -/
def maxParameterLength : Nat := 10 * 1024

namespace YamlDocument

variable (document : YamlDocument)

/-! ## Nodes -/

/-- The loop of `resolve_alias` with `hops` hops left.  An alias without a target of its
own stands for itself. -/
def followAlias : Nat → Nat → Option Nat
  | hops, node =>
      match (document.cells[node]?).map YamlCell.content with
      | some (.alias (some target)) =>
          if target = node then some node
          else
            match hops with
            | 0 => none
            | hops + 1 => followAlias hops target
      | _ => some node

/-- `resolve_alias`. -/
def resolveAlias (node : Option Nat) : Option Nat := node.bind (document.followAlias maxAliasHops)

/-- The contents of a node behind its aliases. -/
def contentOf (node : Option Nat) : Option YamlContent :=
  (document.resolveAlias node).bind fun place => (document.cells[place]?).map YamlCell.content

/-- `praktor_yaml_root`. -/
def rootNode : YamlNode := ⟨document.root, none⟩

/-- `praktor_yaml_valid`. -/
def valid (node : YamlNode) : Bool := (document.resolveAlias node.node).isSome

/-- `praktor_yaml_is_map`. -/
def isMap (node : YamlNode) : Bool :=
  match document.contentOf node.node with
  | some (.mapping _) => true
  | _ => false

/-- `praktor_yaml_is_seq`. -/
def isSeq (node : YamlNode) : Bool :=
  match document.contentOf node.node with
  | some (.sequence _) => true
  | _ => false

/-- `praktor_yaml_has_val`. -/
def hasVal (node : YamlNode) : Bool :=
  match document.contentOf node.node with
  | some (.scalar _) => true
  | _ => false

/-- The nodes `praktor_yaml_at` yields below `praktor_yaml_count`. -/
def children (node : YamlNode) : List YamlNode :=
  match document.contentOf node.node with
  | some (.mapping pairs) => pairs.map fun pair => ⟨some pair.2, some pair.1⟩
  | some (.sequence items) => items.map fun item => ⟨some item, none⟩
  | _ => []

/-- `scalar_text`. -/
def scalarText (node : Option Nat) : Except Bytes CString :=
  match document.contentOf node with
  | some (.scalar text) => .ok text
  | _ => .error (ascii "Expected YAML scalar")

/-- `praktor_yaml_scalar` and `praktor_yaml_key`, as `praktor_yaml_field_decode` calls
them. -/
def fieldDecode (node : YamlNode) (key : Bool) : Except Bytes CString :=
  document.scalarText (if key then node.key else node.node)

/-- `praktor_yaml_has`. -/
def has (node : YamlNode) (key : Bytes) : Bool :=
  match document.resolveAlias node.node with
  | none => false
  | some place => (document.lookup place key).isSome

/-- The key of a mapping that decodes to a text. -/
def keyNode (pairs : List (Nat × Nat)) (key : Bytes) : Option Nat :=
  (pairs.find? fun pair => match document.scalarText pair.1 with
    | .ok text => text.bytes = key
    | .error _ => false).map Prod.fst

/-- `praktor_yaml_field_get`: the value that the parser finds, with the key that decodes
to the same text.  A missing key is no failure and gives the zero node. -/
def fieldGet (node : YamlNode) (key : Bytes) : YamlNode :=
  match document.resolveAlias node.node, document.contentOf node.node with
  | some place, some (.mapping pairs) =>
      match document.lookup place key with
      | some value => ⟨some value, document.keyNode pairs key⟩
      | none => .zero
  | _, _ => .zero

/-- A field that is there: `praktor_yaml_field_get` and the test `praktor_yaml_valid`. -/
def field (node : YamlNode) (key : Bytes) : Option YamlNode :=
  if document.valid (document.fieldGet node key) then some (document.fieldGet node key) else none

/-- The text of a scalar. -/
def plainText (cells : List YamlCell) (place : Nat) : Option Bytes :=
  match (cells[place]?).map YamlCell.content with
  | some (.scalar text) => some text.bytes
  | _ => none

/-- Lookup in a document whose keys are plain scalars: the source has the text that they
are decoded to. -/
def plainLookup (cells : List YamlCell) (place : Nat) (key : Bytes) : Option Nat :=
  match (cells[place]?).map YamlCell.content with
  | some (.mapping pairs) =>
      (pairs.find? fun pair => plainText cells pair.1 = some key).map Prod.snd
  | _ => none

/-! ## Diagnostics -/

/-- `find_location`. -/
def findLocation : Nat → Option Nat → Option (Nat × Nat)
  | 0, _ => none
  | depth + 1, node =>
      match (document.resolveAlias node).bind fun place => document.cells[place]? with
      | none => none
      | some cell =>
          if cell.line ≠ 0 then some (cell.line, cell.column)
          else
            match cell.content with
            | .mapping ((key, _) :: _) => findLocation depth (some key)
            | .sequence (item :: _) => findLocation depth (some item)
            | _ => none

/-- `praktor_yaml_location`. -/
def location (node : YamlNode) : Bytes :=
  match (document.findLocation locationDepth node.key).or
      (document.findLocation locationDepth node.node) with
  | none => []
  | some (line, column) =>
      ascii " at line " ++ ascii (toString line) ++ ascii ", column " ++ ascii (toString column)

/-- `praktor_yaml_field_fail_at`. -/
def failAt {α : Type} (node : YamlNode) (message : Bytes) : Except Bytes α :=
  .error (ascii "Parse error" ++ document.location node ++ ascii ": " ++ message)

/-! ## Fields -/

/-- `praktor_yaml_field_scalar`. -/
def fieldScalar (node : YamlNode) (message : String) : Except Bytes CString := do
  if !document.hasVal node then document.failAt node (ascii message)
  else
    let text ← document.fieldDecode node false
    if text.length > maxParameterLength then
      document.failAt node (ascii "Parameter value exceeds maximum length of 10240 bytes")
    else pure text

/-- `praktor_yaml_field_boolean` with the policy `PRAKTOR_YAML_BOOLEAN_STRICT`. -/
def fieldBoolean (node : YamlNode) (name : String) : Except Bytes Bool := do
  let text ← document.fieldScalar node ("'" ++ name ++ "' must be a boolean")
  let folded := text.bytes.map lower
  if folded ∈ [ascii "true", ascii "yes", ascii "1"] then pure true
  else if folded ∈ [ascii "false", ascii "no", ascii "0"] then pure false
  else document.failAt node (ascii ("'" ++ name ++ "' must be a boolean"))

/-- One round of `praktor_yaml_check_keys`. -/
def checkKey (allowed : List String) (child : YamlNode) : Except Bytes Unit := do
  let key ← document.fieldDecode child true
  if key.bytes ∈ allowed.map ascii then pure ()
  else document.failAt child (ascii "Unknown key: '" ++ key.bytes ++ ascii "'")

/-- `praktor_yaml_check_keys`. -/
def checkKeys (node : YamlNode) (allowed : List String) : Except Bytes Unit :=
  if document.isMap node then (document.children node).forM (document.checkKey allowed)
  else pure ()

end YamlDocument

end Praktor.Yaml
