/-
# JSON values of a document

`praktor_yaml_value` converts a node and what is below it.  A document may share nodes and
refer back to a node above, so that neither the depth nor the size of what it stands for is
bounded by the document.  The conversion counts both and gives up at its limits.

The function calls itself.  It is given a number of calls that may be open at the same time,
and the result says when they are used up: one more than the depth limit is always enough.
-/

import Praktor.Workflow.OutputStaging
import Praktor.Yaml.Document

namespace Praktor.Yaml

open Praktor.Data Praktor.Math Praktor.Workflow

/-- `PRAKTOR_YAML_VALUE_MAX_DEPTH`. -/
def maxValueDepth : Nat := 128

/-- `PRAKTOR_YAML_VALUE_MAX_NODES`. -/
def maxValueNodes : Nat := 16384

/-- What the conversion takes from the packages around it. -/
structure ValueLibrary where
  /-- `cyaml_scalar_kind` is `CYAML_KIND_STRING`. -/
  isString : Nat → Bool
  /-- `json_create_int64`. -/
  integer : Int → JsonNumber
  /-- `strtod` over the whole of a text, with `json_create_number`. -/
  number : Bytes → Option JsonNumber
  /-- `json_object_add_n`. -/
  add : List (Bytes × Json) → Bytes → Json → List (Bytes × Json)
  /-- One member is inserted, or replaced where the key is there. -/
  add_perm : ∀ members key value,
    (add members key value).Perm ((key, value) :: members.filter fun member => member.1 ≠ key)

/-- Why a conversion ends without a value. -/
inductive ValueStop
  | refused (text : Bytes)
  | unfinished
  deriving DecidableEq, Repr

/-! ## Scalars -/

/-- `lower_is`. -/
def lowerIs (text : Bytes) (word : String) : Bool := text.map lower = ascii word

/-- The digits of a text as a number. -/
def decimal (digits : Bytes) : Nat :=
  digits.foldl (fun value digit => value * 10 + (digit.toNat - 48)) 0

/-- `signed_decimal`. -/
def signedDecimal (text : Bytes) : Option Int :=
  let negative := text.head? = some 45
  let digits := if negative then text.tail else text
  if digits = [] ∨ digits.any (fun digit => digit < 48 || 57 < digit) then none
  else
    let value : Int := if negative then -(decimal digits : Int) else decimal digits
    if value < -9223372036854775808 ∨ 9223372036854775807 < value then none else some value

namespace YamlDocument

variable (document : YamlDocument) (library : ValueLibrary)

/-- `scalar_value`. -/
def scalarValue (node : YamlNode) : Except Bytes Json := do
  let text ← document.fieldDecode node false
  if (document.resolveAlias node.node).any library.isString then pure (.string text.bytes)
  else if lowerIs text.bytes "null" || lowerIs text.bytes "~" then pure .null
  else if ["true", "yes", "on"].any (lowerIs text.bytes) then pure (.bool true)
  else if ["false", "no", "off"].any (lowerIs text.bytes) then pure (.bool false)
  else
    match signedDecimal text.bytes with
    | some value => pure (.number (library.integer value))
    | none =>
        match library.number text.bytes with
        | some number => pure (.number number)
        | none => pure (.string text.bytes)

/-! ## Values -/

/-- `praktor_yaml_field_fail_at` and `limit_error`. -/
def stopAt {α : Type} (node : YamlNode) (message : Bytes) : Except ValueStop α :=
  (document.failAt node message).mapError .refused

/-- A converted child is put into its object or array; the key is decoded after the value. -/
def commit (child : YamlNode) (value : Json) : Json → Except Bytes Json
  | .object members => do
      let key ← document.fieldDecode child true
      pure (.object (library.add members key.bytes value))
  | .array items => pure (.array (items ++ [value]))
  | result => pure result

/-- One round of the loop of `convert_value`. -/
def convertChild (convert : YamlNode → Nat → Except ValueStop (Json × Nat))
    (state : Json × Nat) (child : YamlNode) : Except ValueStop (Json × Nat) := do
  let (value, remaining) ← convert child state.2
  let result ← (document.commit library child value state.1).mapError .refused
  pure (result, remaining)

/-- `convert_value` with the number of calls that may be open, the depth and the number of
values that remain. -/
def convertValue : Nat → YamlNode → Nat → Nat → Except ValueStop (Json × Nat)
  | 0, _, _, _ => .error .unfinished
  | calls + 1, node, depth, remaining =>
      if depth > maxValueDepth then
        document.stopAt node (ascii "YAML value nesting exceeds maximum depth of " ++
          ascii (toString maxValueDepth))
      else if remaining = 0 then
        document.stopAt node (ascii "YAML value expansion exceeds maximum count of " ++
          ascii (toString maxValueNodes))
      else if document.isMap node then
        (document.children node).foldlM
          (document.convertChild library fun child => convertValue calls child (depth + 1))
          (.object [], remaining - 1)
      else if document.isSeq node then
        (document.children node).foldlM
          (document.convertChild library fun child => convertValue calls child (depth + 1))
          (.array [], remaining - 1)
      else if document.hasVal node then
        ((document.scalarValue library node).map (·, remaining - 1)).mapError .refused
      else document.stopAt node (ascii "contract value must be a scalar, sequence, or map")

/-- `praktor_yaml_value`. -/
def praktorYamlValue (calls : Nat) (node : YamlNode) : Except ValueStop Json :=
  (document.convertValue library calls node 1 maxValueNodes).map Prod.fst

end YamlDocument

/-! ## The limits -/

theorem itemsSize_append (items : List Json) (value : Json) :
    (itemsSize (items ++ [value])).depth = max (itemsSize items).depth (jsonSize value).depth ∧
      (itemsSize (items ++ [value])).nodes = (itemsSize items).nodes + (jsonSize value).nodes := by
  induction items with
  | nil => simp [itemsSize, JsonSize.beside, JsonSize.zero]
  | cons item rest ih =>
      simp only [List.cons_append, itemsSize, JsonSize.beside, ih.1, ih.2]
      omega

/-- The sizes of the members that an object has after one is put into it. -/
theorem ValueLibrary.membersSize_add (library : ValueLibrary) (members : List (Bytes × Json))
    (key : Bytes) (value : Json) :
    (membersSize (library.add members key value)).depth ≤
        max (membersSize members).depth (jsonSize value).depth ∧
      (membersSize (library.add members key value)).nodes ≤
        (membersSize members).nodes + (jsonSize value).nodes := by
  obtain ⟨hdepth, hnodes, -⟩ := membersSize_sublist
    (List.filter_sublist : (members.filter fun member => decide (member.1 ≠ key)).Sublist members)
  rw [membersSize_perm (library.add_perm members key value)]
  simp only [membersSize, JsonSize.beside, JsonSize.keyed]
  omega

/-- What a call at a depth may end in: a value within the levels and the values that are left,
or a refusal. -/
def Bounded (depth remaining : Nat) : Except ValueStop (Json × Nat) → Prop
  | .ok (value, left) => (jsonSize value).depth + depth ≤ maxValueDepth + 1 ∧
      (jsonSize value).nodes + left ≤ remaining
  | .error (.refused _) => True
  | .error .unfinished => False

namespace YamlDocument

variable {document : YamlDocument} {library : ValueLibrary}

theorem stopAt_bounded (node : YamlNode) (message : Bytes) (depth remaining : Nat) :
    Bounded depth remaining (document.stopAt node message) := trivial

/-- A child that is put into its parent adds its nodes, and one level. -/
theorem commit_size {child : YamlNode} {value before after : Json}
    (hcommit : document.commit library child value before = .ok after) :
    (jsonSize after).depth ≤ max (jsonSize before).depth ((jsonSize value).depth + 1) ∧
      (jsonSize after).nodes ≤ (jsonSize before).nodes + (jsonSize value).nodes := by
  cases before with
  | object members =>
      obtain ⟨key, -, hafter⟩ := except_bind_eq_ok.mp hcommit
      obtain rfl := Except.ok.inj hafter
      obtain ⟨hdepth, hnodes⟩ := library.membersSize_add members key.bytes value
      simp only [jsonSize, JsonSize.above]
      omega
  | array items =>
      obtain rfl := Except.ok.inj hcommit
      obtain ⟨hdepth, hnodes⟩ := itemsSize_append items value
      simp only [jsonSize, JsonSize.above, hdepth, hnodes]
      omega
  | _ =>
      obtain rfl := Except.ok.inj hcommit
      omega

/-- One child keeps to the limits. -/
theorem convertChild_bounded {depth : Nat}
    {convert : YamlNode → Nat → Except ValueStop (Json × Nat)}
    (hconvert : ∀ child remaining, Bounded (depth + 1) remaining (convert child remaining))
    (child : YamlNode) {remaining : Nat} {state : Json × Nat}
    (hstate : Bounded depth remaining (.ok state)) :
    Bounded depth remaining (document.convertChild library convert state child) := by
  have hchild := hconvert child state.2
  rw [convertChild]
  cases hvalue : convert child state.2 with
  | error stop =>
      rw [hvalue] at hchild
      cases stop with
      | refused text => trivial
      | unfinished => exact hchild
  | ok converted =>
      obtain ⟨value, left⟩ := converted
      rw [hvalue] at hchild
      obtain ⟨hvalueDepth, hvalueNodes⟩ := hchild
      obtain ⟨hstateDepth, hstateNodes⟩ := hstate
      simp only [bind, Except.bind]
      cases hcommit : document.commit library child value state.1 with
      | error text => trivial
      | ok after =>
          obtain ⟨hdepth, hnodes⟩ := commit_size hcommit
          show (jsonSize after).depth + depth ≤ maxValueDepth + 1 ∧
            (jsonSize after).nodes + left ≤ remaining
          omega

/-- A loop over children keeps to the limits. -/
theorem convertChildren_bounded {depth : Nat}
    {convert : YamlNode → Nat → Except ValueStop (Json × Nat)}
    (hconvert : ∀ child remaining, Bounded (depth + 1) remaining (convert child remaining))
    (nodes : List YamlNode) {remaining : Nat} {state : Json × Nat}
    (hstate : Bounded depth remaining (.ok state)) :
    Bounded depth remaining (nodes.foldlM (document.convertChild library convert) state) := by
  induction nodes generalizing state with
  | nil => exact hstate
  | cons child rest ih =>
      have hchild : Bounded depth remaining (document.convertChild library convert state child) :=
        convertChild_bounded hconvert child hstate
      rw [List.foldlM_cons]
      cases hround : document.convertChild library convert state child with
      | error stop =>
          rw [hround] at hchild
          exact hchild
      | ok next =>
          rw [hround] at hchild
          exact ih hchild

theorem scalarValue_size {node : YamlNode} {value : Json}
    (hvalue : document.scalarValue library node = .ok value) :
    (jsonSize value).depth = 1 ∧ (jsonSize value).nodes = 1 := by
  obtain ⟨text, -, hvalue⟩ := except_bind_eq_ok.mp hvalue
  have hleaf : ∀ leaf : Json, (Except.ok leaf : Except Bytes Json) = .ok value →
      (jsonSize leaf).depth = 1 ∧ (jsonSize leaf).nodes = 1 →
      (jsonSize value).depth = 1 ∧ (jsonSize value).nodes = 1 := by
    rintro leaf hsame hsize
    rwa [← Except.ok.inj hsame]
  split_ifs at hvalue
  · exact hleaf _ hvalue ⟨rfl, rfl⟩
  · exact hleaf _ hvalue ⟨rfl, rfl⟩
  · exact hleaf _ hvalue ⟨rfl, rfl⟩
  · exact hleaf _ hvalue ⟨rfl, rfl⟩
  · split at hvalue
    · exact hleaf _ hvalue ⟨rfl, rfl⟩
    · split at hvalue
      · exact hleaf _ hvalue ⟨rfl, rfl⟩
      · exact hleaf _ hvalue ⟨rfl, rfl⟩

/-- With enough calls a conversion comes to an end, within the limits. -/
theorem convertValue_bounded (calls : Nat) (node : YamlNode) {depth : Nat} (remaining : Nat)
    (hcalls : maxValueDepth + 2 ≤ depth + calls) (hcall : 0 < calls) :
    Bounded depth remaining (document.convertValue library calls node depth remaining) := by
  induction calls generalizing node depth remaining with
  | zero => exact absurd hcall (Nat.lt_irrefl 0)
  | succ calls ih =>
      rw [convertValue]
      split_ifs with hdepth hremaining hmap hseq hscalar
      · exact stopAt_bounded _ _ _ _
      · exact stopAt_bounded _ _ _ _
      · apply convertChildren_bounded
        · exact fun child left => ih child left (by omega) (by omega)
        · show 1 + depth ≤ maxValueDepth + 1 ∧ 1 + (remaining - 1) ≤ remaining
          omega
      · apply convertChildren_bounded
        · exact fun child left => ih child left (by omega) (by omega)
        · show 1 + depth ≤ maxValueDepth + 1 ∧ 1 + (remaining - 1) ≤ remaining
          omega
      · cases hvalue : document.scalarValue library node with
        | error text => trivial
        | ok value =>
            obtain ⟨hsize, hnodes⟩ := scalarValue_size hvalue
            show (jsonSize value).depth + depth ≤ maxValueDepth + 1 ∧
              (jsonSize value).nodes + (remaining - 1) ≤ remaining
            omega
      · exact stopAt_bounded _ _ _ _

/-! ## More calls -/

theorem convertChild_congr {first second : YamlNode → Nat → Except ValueStop (Json × Nat)}
    (hsame : ∀ child remaining, first child remaining = second child remaining) :
    document.convertChild library first = document.convertChild library second := by
  have hfunction : first = second := by
    funext child remaining
    exact hsame child remaining
  rw [hfunction]

/-- More calls than are enough make no difference. -/
theorem convertValue_more (calls more : Nat) (node : YamlNode) {depth : Nat} (remaining : Nat)
    (hcalls : maxValueDepth + 2 ≤ depth + calls) (hcall : 0 < calls) :
    document.convertValue library (calls + more) node depth remaining =
      document.convertValue library calls node depth remaining := by
  induction calls generalizing node depth remaining with
  | zero => exact absurd hcall (Nat.lt_irrefl 0)
  | succ calls ih =>
      rw [Nat.add_right_comm, convertValue, convertValue]
      by_cases hdepth : depth > maxValueDepth
      · rw [if_pos hdepth, if_pos hdepth]
      · rw [convertChild_congr fun child left => @ih child (depth + 1) left (by omega) (by omega)]

end YamlDocument

end Praktor.Yaml
