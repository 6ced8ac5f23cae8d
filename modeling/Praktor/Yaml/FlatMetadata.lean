/-
# Metadata beside a flat form

A task in one of the flat forms is one mapping: the parts of the form are siblings of the
metadata of the task.  Two parsers read it, one for the metadata and one for the tree, and
each must tell its own keys from those of the other.

The parser of trees sees a document only through the contents of its nodes and the lookups
in its mappings.  Nodes of two documents with the same contents are read alike, wherever
they stand; so a mapping with more metadata is read as the tree that it was without.
-/

import Mathlib.Tactic.IntervalCases
import Praktor.Yaml.OrchestrationTrees
import Praktor.Yaml.TaskMetadata

namespace Praktor.Yaml

open Praktor.Data Praktor.Math Praktor.Workflow

/-! ## Nodes with the same contents -/

/-- What the parser looks up in a mapping. -/
def YamlDocument.lookupOf (document : YamlDocument) (node : Option Nat) (key : Bytes) :
    Option Nat :=
  (document.resolveAlias node).bind fun place => document.lookup place key

/-- The contents are the same, with nodes that correspond to one another. -/
inductive SameContent (same : Nat → Nat → Prop) : Option YamlContent → Option YamlContent → Prop
  | none : SameContent same none none
  | scalar (text : CString) : SameContent same (some (.scalar text)) (some (.scalar text))
  | sequence {items items' : List Nat} : List.Forall₂ same items items' →
      SameContent same (some (.sequence items)) (some (.sequence items'))
  | mapping {pairs pairs' : List (Nat × Nat)} :
      List.Forall₂ (fun pair pair' => same pair.1 pair'.1 ∧ same pair.2 pair'.2) pairs pairs' →
      SameContent same (some (.mapping pairs)) (some (.mapping pairs'))
  | alias (target target' : Option Nat) :
      SameContent same (some (.alias target)) (some (.alias target'))

/-- Nodes that correspond have the same contents, down to their leaves, and the same
lookups.  Their positions in the text may differ. -/
structure SameBelow (first second : YamlDocument) (same : Nat → Nat → Prop) : Prop where
  content : ∀ place place', same place place' →
    SameContent same (first.contentOf (some place)) (second.contentOf (some place'))
  lookup : ∀ place place' key, same place place' →
    Option.Rel same (first.lookupOf (some place) key) (second.lookupOf (some place') key)

/-- Nodes with corresponding places. -/
def SameNode (same : Nat → Nat → Prop) (node node' : YamlNode) : Prop :=
  Option.Rel same node.node node'.node

/-- Entries with corresponding keys and values. -/
def SameEntry (same : Nat → Nat → Prop) (node node' : YamlNode) : Prop :=
  SameNode same node node' ∧ Option.Rel same node.key node'.key

section Nodes

variable {first second : YamlDocument} {same : Nat → Nat → Prop}

theorem SameBelow.content_eq (hbelow : SameBelow first second same) {place place' : Option Nat}
    (hsame : Option.Rel same place place') :
    SameContent same (first.contentOf place) (second.contentOf place') := by
  cases hsame with
  | none => exact .none
  | some hplace => exact hbelow.content _ _ hplace

theorem SameBelow.lookup_eq (hbelow : SameBelow first second same) {place place' : Option Nat}
    (hsame : Option.Rel same place place') (key : Bytes) :
    Option.Rel same (first.lookupOf place key) (second.lookupOf place' key) := by
  cases hsame with
  | none => exact .none
  | some hplace => exact hbelow.lookup _ _ key hplace

theorem SameBelow.scalarText (hbelow : SameBelow first second same) {place place' : Option Nat}
    (hsame : Option.Rel same place place') :
    Agree Eq (first.scalarText place) (second.scalarText place') := by
  have hcontent := hbelow.content_eq hsame
  rw [YamlDocument.scalarText, YamlDocument.scalarText]
  generalize first.contentOf place = content at hcontent ⊢
  generalize second.contentOf place' = content' at hcontent ⊢
  cases hcontent with
  | scalar text => exact .ok rfl
  | _ => exact .error _ _

variable {node node' : YamlNode}

/-- The kinds of corresponding nodes. -/
theorem SameBelow.kinds (hbelow : SameBelow first second same) (hsame : SameNode same node node') :
    first.isMap node = second.isMap node' ∧ first.isSeq node = second.isSeq node' ∧
      first.hasVal node = second.hasVal node' := by
  have hcontent := hbelow.content_eq hsame
  simp only [YamlDocument.isMap, YamlDocument.isSeq, YamlDocument.hasVal]
  generalize first.contentOf node.node = content at hcontent ⊢
  generalize second.contentOf node'.node = content' at hcontent ⊢
  cases hcontent <;> exact ⟨rfl, rfl, rfl⟩

theorem SameBelow.children (hbelow : SameBelow first second same)
    (hsame : SameNode same node node') :
    List.Forall₂ (SameEntry same) (first.children node) (second.children node') := by
  have hcontent := hbelow.content_eq hsame
  rw [YamlDocument.children, YamlDocument.children]
  generalize first.contentOf node.node = content at hcontent ⊢
  generalize second.contentOf node'.node = content' at hcontent ⊢
  cases hcontent with
  | sequence hitems =>
      rw [List.forall₂_map_left_iff, List.forall₂_map_right_iff]
      exact hitems.imp fun _ _ hitem => ⟨.some hitem, .none⟩
  | mapping hpairs =>
      rw [List.forall₂_map_left_iff, List.forall₂_map_right_iff]
      exact hpairs.imp fun _ _ hpair => ⟨.some hpair.2, .some hpair.1⟩
  | _ => exact .nil

theorem has_eq (document : YamlDocument) (node : YamlNode) (key : Bytes) :
    document.has node key = (document.lookupOf node.node key).isSome := by
  rw [YamlDocument.has, YamlDocument.lookupOf]
  cases document.resolveAlias node.node <;> rfl

/-- A lookup succeeds in mappings alone. -/
theorem get?_cases (document : YamlDocument) (node : YamlNode) (key : String) :
    (∃ value found, document.isMap node = true ∧
        document.lookupOf node.node (ascii key) = some value ∧
        document.get? node key = some ⟨some value, found⟩) ∨
      ((document.isMap node = false ∨ document.lookupOf node.node (ascii key) = none) ∧
        document.get? node key = none) := by
  rw [YamlDocument.get?, YamlDocument.fieldGet, YamlDocument.isMap, YamlDocument.lookupOf]
  cases hplace : document.resolveAlias node.node with
  | none => exact .inr ⟨.inr rfl, rfl⟩
  | some place =>
      cases hcontent : document.contentOf node.node with
      | none => exact .inr ⟨.inl rfl, rfl⟩
      | some content =>
          cases content with
          | mapping pairs =>
              cases hlookup : document.lookup place (ascii key) with
              | none => exact .inr ⟨.inr hlookup, by simp [hlookup, YamlNode.zero]⟩
              | some value =>
                  exact .inl ⟨value, document.keyNode pairs (ascii key), rfl, hlookup, by simp [hlookup]⟩
          | _ => exact .inr ⟨.inl rfl, rfl⟩

/-- Mappings in which a key is found alike. -/
theorem get?_rel {key : String} (hmap : first.isMap node = second.isMap node')
    (hlookup : Option.Rel same (first.lookupOf node.node (ascii key))
      (second.lookupOf node'.node (ascii key))) :
    Option.Rel (SameNode same) (first.get? node key) (second.get? node' key) := by
  rcases get?_cases first node key with ⟨value, found, hfirst, hvalue, hget⟩ | ⟨hnone, hget⟩
  · rw [hvalue] at hlookup
    rcases get?_cases second node' key with ⟨value', found', -, hvalue', hget'⟩ | ⟨hnone', -⟩
    · rw [hvalue'] at hlookup
      rw [hget, hget']
      exact .some hlookup
    · rcases hnone' with hnone' | hnone'
      · rw [← hmap, hfirst] at hnone'
        simp at hnone'
      · rw [hnone'] at hlookup
        cases hlookup
  · rcases get?_cases second node' key with ⟨value', found', hsecond, hvalue', -⟩ | ⟨-, hget'⟩
    · rw [hvalue'] at hlookup
      rcases hnone with hnone | hnone
      · rw [hmap, hsecond] at hnone
        simp at hnone
      · rw [hnone] at hlookup
        cases hlookup
    · rw [hget, hget']
      exact .none

theorem isSome_rel {place place' : Option Nat} (hsame : Option.Rel same place place') :
    place.isSome = place'.isSome := by
  cases hsame <;> rfl

end Nodes

/-! ## Readers -/

/-- The parser one level deeper reads corresponding nodes alike. -/
def DeeperAlike (same : Nat → Nat → Prop) (deeper deeper' : YamlDocument.Deeper) : Prop :=
  ∀ node node' parent rows, SameNode same node node' →
    Agree Eq (deeper node parent rows) (deeper' node' parent rows)

/-- Two mappings in which the parser finds the same under some of the keys. -/
structure KeysAlike (first second : YamlDocument) (same : Nat → Nat → Prop) (keys : List String)
    (map map' : YamlNode) : Prop where
  isMap : first.isMap map = second.isMap map'
  lookup : ∀ key ∈ keys, Option.Rel same (first.lookupOf map.node (ascii key))
    (second.lookupOf map'.node (ascii key))

section Readers

variable {first second : YamlDocument} {same : Nat → Nat → Prop} {keys : List String}
  {map map' field field' : YamlNode}

theorem refuseAt_agree {α : Type} (node node' : YamlNode) (message message' : Bytes) :
    Agree Eq (first.refuseAt node message : Except Refusal α) (second.refuseAt node' message') :=
  .error _ _

theorem KeysAlike.has (hkeys : KeysAlike first second same keys map map') {key : String}
    (hkey : key ∈ keys) : first.has map (ascii key) = second.has map' (ascii key) := by
  rw [has_eq, has_eq]
  exact isSome_rel (hkeys.lookup key hkey)

theorem KeysAlike.get? (hkeys : KeysAlike first second same keys map map') {key : String}
    (hkey : key ∈ keys) : Option.Rel (SameNode same) (first.get? map key) (second.get? map' key) :=
  get?_rel hkeys.isMap (hkeys.lookup key hkey)

theorem KeysAlike.flatRequire (hkeys : KeysAlike first second same keys map map') {key : String}
    (hkey : key ∈ keys) (missing : String) :
    Agree (SameNode same) (first.flatRequire map key missing)
      (second.flatRequire map' key missing) := by
  have hget := hkeys.get? hkey
  rw [YamlDocument.flatRequire, YamlDocument.flatRequire]
  generalize first.get? map key = found at hget ⊢
  generalize second.get? map' key = found' at hget ⊢
  cases hget with
  | none => exact .error _ _
  | some hnode => exact .ok hnode

theorem flatScalar_agree (hbelow : SameBelow first second same)
    (hsame : SameNode same field field') (message message' : Bytes) :
    Agree Eq (first.flatScalar field message) (second.flatScalar field' message') := by
  have htext := hbelow.scalarText hsame
  rw [YamlDocument.flatScalar, YamlDocument.flatScalar]
  generalize first.scalarText field.node = text at htext ⊢
  generalize second.scalarText field'.node = text' at htext ⊢
  cases htext with
  | error => exact .error _ _
  | ok htext => exact .ok htext

theorem fieldDecode_agree (hbelow : SameBelow first second same)
    (hsame : SameEntry same field field') :
    Agree Eq (first.fieldDecode field true) (second.fieldDecode field' true) :=
  hbelow.scalarText hsame.2

theorem validateParam_agree (type : OrchType) (key value : CString) (source source' : YamlNode)
    (typeLower : Bytes) :
    Agree Eq (first.validateParam type key value source typeLower)
      (second.validateParam type key value source' typeLower) := by
  simp only [YamlDocument.validateParam]
  split_ifs
  · exact .ok rfl
  · exact refuseAt_agree _ _ _ _
  · exact refuseAt_agree _ _ _ _
  · exact .ok rfl

/-- A parameter does not depend on where it was found. -/
theorem addParam_agree (rows : NamedRows) (index : Nat) (key value : CString)
    (source source' : YamlNode) (typeLower : Bytes) :
    Agree Eq (first.addParam rows index key value source typeLower)
      (second.addParam rows index key value source' typeLower) := by
  rw [YamlDocument.addParam, YamlDocument.addParam]
  cases rows[index]? with
  | none => exact .ok rfl
  | some row => exact (validateParam_agree _ _ _ _ _ _).bind fun _ _ _ => .refl _

theorem validateNamedRow_agree (rows : NamedRows) (index : Nat) (origin origin' : YamlNode)
    (typeLower : Bytes) :
    Agree Eq (first.validateNamedRow rows index origin typeLower)
      (second.validateNamedRow rows index origin' typeLower) := by
  simp only [YamlDocument.validateNamedRow]
  cases rows[index]? with
  | none => exact .ok rfl
  | some row =>
      simp only
      split
      · exact refuseAt_agree _ _ _ _
      · split <;> split_ifs <;> first | exact .ok rfl | exact refuseAt_agree _ _ _ _

variable {deeper deeper' : YamlDocument.Deeper}

theorem parseEach_agree (hdeeper : DeeperAlike same deeper deeper') {nodes nodes' : List YamlNode}
    (hnodes : List.Forall₂ (SameEntry same) nodes nodes') (parent : Nat) (rows : NamedRows) :
    Agree Eq (YamlDocument.parseEach deeper nodes parent rows)
      (YamlDocument.parseEach deeper' nodes' parent rows) := by
  refine Agree.foldlM hnodes (fun state state' node node' hstate hnode => ?_) rfl
  subst hstate
  exact hdeeper node node' _ _ hnode.1

theorem parseChildren_agree (hbelow : SameBelow first second same)
    (hdeeper : DeeperAlike same deeper deeper') (hsame : SameNode same field field') (parent : Nat)
    (rows : NamedRows) :
    Agree Eq (first.parseChildren deeper field parent rows)
      (second.parseChildren deeper' field' parent rows) := by
  rw [YamlDocument.parseChildren, YamlDocument.parseChildren, (hbelow.kinds hsame).2.1]
  split_ifs
  · exact parseEach_agree hdeeper (hbelow.children hsame) parent rows
  · exact refuseAt_agree _ _ _ _

theorem flatBranch_agree (hbelow : SameBelow first second same)
    (hdeeper : DeeperAlike same deeper deeper') (hsame : SameNode same field field') (depth : Nat)
    (parent : Nat) (rows : NamedRows) :
    Agree Eq (first.flatBranch depth deeper field parent rows)
      (second.flatBranch depth deeper' field' parent rows) := by
  have hchildren := hbelow.children hsame
  rw [YamlDocument.flatBranch, YamlDocument.flatBranch, (hbelow.kinds hsame).2.1,
    hchildren.length_eq]
  split_ifs
  · exact refuseAt_agree _ _ _ _
  · refine (Agree.refl _).bind fun next next' hnext => ?_
    subst hnext
    exact parseEach_agree hdeeper hchildren _ _
  · exact hdeeper field field' _ rows hsame

/-! ## Flat forms -/

/-- The keys of the flat forms. -/
def formKeys : List String :=
  ["if", "then", "else", "while", "do", "max_iterations", "switch", "cases", "set_variable", "value",
    "from", "timeout", "repeat", "delay", "keep_running_until_failure", "precondition",
    "entry_updated", "consume_queue", "run_once", "child"]

variable (depth index : Nat) (rows : NamedRows)

theorem flatAddParam_agree (form : YamlDocument.FlatForm) (key : String) (value : CString)
    (source source' : YamlNode) :
    Agree Eq (first.flatAddParam form rows index key value source)
      (second.flatAddParam form rows index key value source') :=
  addParam_agree _ _ _ _ _ _ _

/-- A scalar that becomes a parameter. -/
theorem scalarParam_agree (hbelow : SameBelow first second same)
    (hsame : SameNode same field field') (form : YamlDocument.FlatForm) (key : String)
    (message : Bytes) :
    Agree Eq
      (do
        let value ← first.flatScalar field message
        first.flatAddParam form rows index key value field)
      (do
        let value ← second.flatScalar field' message
        second.flatAddParam form rows index key value field') := by
  refine (flatScalar_agree hbelow hsame _ _).bind fun value value' hvalue => ?_
  subst hvalue
  exact flatAddParam_agree _ _ _ _ _ _ _

theorem flatDecorator_agree (hbelow : SameBelow first second same)
    (hdeeper : DeeperAlike same deeper deeper') (hkeys : KeysAlike first second same formKeys map map')
    {form : YamlDocument.FlatForm} (hform : form.name ∈ formKeys) (param : Option String) :
    Agree Eq (first.flatDecorator depth deeper map index rows form param)
      (second.flatDecorator depth deeper' map' index rows form param) := by
  rw [YamlDocument.flatDecorator, YamlDocument.flatDecorator]
  refine (hkeys.flatRequire hform _).bind fun field field' hfield => ?_
  refine (hkeys.flatRequire (by decide) _).bind fun branch branch' hbranch => ?_
  refine (flatScalar_agree hbelow hfield _ _).bind fun value value' hvalue => ?_
  subst hvalue
  cases param with
  | none => exact flatBranch_agree hbelow hdeeper hbranch _ _ _
  | some key =>
      refine (flatAddParam_agree _ _ _ _ _ _ _).bind fun next next' hnext => ?_
      subst hnext
      exact flatBranch_agree hbelow hdeeper hbranch _ _ _

theorem flatCondition_agree (hbelow : SameBelow first second same)
    (hdeeper : DeeperAlike same deeper deeper') (form : YamlDocument.FlatForm)
    (hsame : SameNode same field field') :
    Agree Eq (first.flatCondition depth deeper index rows form field)
      (second.flatCondition depth deeper' index rows form field') := by
  rw [YamlDocument.flatCondition, YamlDocument.flatCondition, (hbelow.kinds hsame).2.2]
  split_ifs
  · exact scalarParam_agree _ _ hbelow hsame _ _ _
  · exact flatBranch_agree hbelow hdeeper hsame _ _ _

theorem flatConditional_agree (hbelow : SameBelow first second same)
    (hdeeper : DeeperAlike same deeper deeper')
    (hkeys : KeysAlike first second same formKeys map map') :
    Agree Eq (first.flatConditional depth deeper map index rows)
      (second.flatConditional depth deeper' map' index rows) := by
  rw [YamlDocument.flatConditional, YamlDocument.flatConditional]
  refine (hkeys.flatRequire (by decide) _).bind fun field field' hfield => ?_
  refine (flatCondition_agree _ _ _ hbelow hdeeper _ hfield).bind fun next next' hnext => ?_
  subst hnext
  refine (hkeys.flatRequire (by decide) _).bind fun branch branch' hbranch => ?_
  refine (flatBranch_agree hbelow hdeeper hbranch _ _ _).bind fun later later' hlater => ?_
  subst hlater
  rw [hkeys.has (by decide)]
  split_ifs
  · have hget := hkeys.get? (show "else" ∈ formKeys by decide)
    generalize first.get? map "else" = found at hget ⊢
    generalize second.get? map' "else" = found' at hget ⊢
    cases hget with
    | none => exact refuseAt_agree _ _ _ _
    | some hnode => exact flatBranch_agree hbelow hdeeper hnode _ _ _
  · exact .ok rfl

theorem flatLimit_agree (hbelow : SameBelow first second same)
    (hkeys : KeysAlike first second same formKeys map map') :
    Agree Eq (first.flatLimit map index rows) (second.flatLimit map' index rows) := by
  rw [YamlDocument.flatLimit, YamlDocument.flatLimit, hkeys.has (by decide)]
  split_ifs
  · have hget := hkeys.get? (show "max_iterations" ∈ formKeys by decide)
    generalize first.get? map "max_iterations" = found at hget ⊢
    generalize second.get? map' "max_iterations" = found' at hget ⊢
    cases hget with
    | none => exact refuseAt_agree _ _ _ _
    | some hnode => exact scalarParam_agree _ _ hbelow hnode _ _ _
  · exact .ok rfl

theorem flatLoop_agree (hbelow : SameBelow first second same)
    (hdeeper : DeeperAlike same deeper deeper')
    (hkeys : KeysAlike first second same formKeys map map') :
    Agree Eq (first.flatLoop depth deeper map index rows)
      (second.flatLoop depth deeper' map' index rows) := by
  rw [YamlDocument.flatLoop, YamlDocument.flatLoop]
  refine (hkeys.flatRequire (by decide) _).bind fun field field' hfield => ?_
  refine (flatCondition_agree _ _ _ hbelow hdeeper _ hfield).bind fun next next' hnext => ?_
  subst hnext
  refine (flatLimit_agree _ _ hbelow hkeys).bind fun later later' hlater => ?_
  subst hlater
  refine (hkeys.flatRequire (by decide) _).bind fun branch branch' hbranch => ?_
  exact flatBranch_agree hbelow hdeeper hbranch _ _ _

theorem flatSwitch_agree (hbelow : SameBelow first second same)
    (hdeeper : DeeperAlike same deeper deeper')
    (hkeys : KeysAlike first second same formKeys map map') :
    Agree Eq (first.flatSwitch depth deeper map index rows)
      (second.flatSwitch depth deeper' map' index rows) := by
  rw [YamlDocument.flatSwitch, YamlDocument.flatSwitch, hkeys.has (by decide)]
  split_ifs
  · exact refuseAt_agree _ _ _ _
  refine (hkeys.flatRequire (by decide) _).bind fun field field' hfield => ?_
  refine (flatScalar_agree hbelow hfield _ _).bind fun value value' hvalue => ?_
  subst hvalue
  refine (flatAddParam_agree _ _ _ _ _ _ _).bind fun next next' hnext => ?_
  subst hnext
  refine (hkeys.flatRequire (by decide) _).bind fun branch branch' hbranch => ?_
  have hchildren := hbelow.children hbranch
  rw [(hbelow.kinds hbranch).2.1, hchildren.length_eq]
  split_ifs
  · exact refuseAt_agree _ _ _ _
  · exact refuseAt_agree _ _ _ _
  · refine Agree.foldlM hchildren (fun state state' node node' hstate hnode => ?_) rfl
    subst hstate
    exact flatBranch_agree hbelow hdeeper hnode.1 _ _ _

theorem flatSetVariable_agree (hbelow : SameBelow first second same)
    (hkeys : KeysAlike first second same formKeys map map') :
    Agree Eq (first.flatSetVariable map index rows) (second.flatSetVariable map' index rows) := by
  have hvalue := hkeys.has (show "value" ∈ formKeys by decide)
  have hfrom := hkeys.has (show "from" ∈ formKeys by decide)
  rw [YamlDocument.flatSetVariable, YamlDocument.flatSetVariable, hvalue, hfrom]
  split
  · exact refuseAt_agree _ _ _ _
  refine (hkeys.flatRequire (by decide) _).bind fun field field' hfield => ?_
  refine (flatScalar_agree hbelow hfield _ _).bind fun key key' hkey => ?_
  subst hkey
  refine (flatAddParam_agree _ _ _ _ _ _ _).bind fun next next' hnext => ?_
  subst hnext
  have hmem : (if second.has map' (ascii "value") = true then "value" else "from") ∈ formKeys := by
    split_ifs <;> decide
  generalize (if second.has map' (ascii "value") = true then "value" else "from") = name at hmem ⊢
  have hget := hkeys.get? hmem
  simp only
  generalize first.get? map name = found at hget ⊢
  generalize second.get? map' name = found' at hget ⊢
  cases hget with
  | none => exact refuseAt_agree _ _ _ _
  | some hnode => exact scalarParam_agree _ _ hbelow hnode _ _ _

/-- A flat form, once its keys have been admitted. -/
theorem flatParse_agree (hbelow : SameBelow first second same)
    (hdeeper : DeeperAlike same deeper deeper')
    (hkeys : KeysAlike first second same formKeys map map') (parent : Option Nat)
    (form : YamlDocument.FlatForm) (allowMetadata : Bool)
    (hvalid : Agree Eq (first.flatValidateKeys map form allowMetadata)
      (second.flatValidateKeys map' form allowMetadata)) :
    Agree Eq (first.flatParse depth deeper map parent form allowMetadata rows)
      (second.flatParse depth deeper' map' parent form allowMetadata rows) := by
  rw [YamlDocument.flatParse, YamlDocument.flatParse, hkeys.isMap]
  split
  · exact .error _ _
  refine hvalid.bind fun _ _ _ => (Agree.refl _).bind fun next next' hnext => ?_
  subst hnext
  have hform : form.name ∈ formKeys := by
    cases form <;> decide
  split
  · exact flatDecorator_agree _ _ _ hbelow hdeeper hkeys hform _
  · split
    · exact flatConditional_agree _ _ _ hbelow hdeeper hkeys
    · exact flatLoop_agree _ _ _ hbelow hdeeper hkeys
    · exact flatSwitch_agree _ _ _ hbelow hdeeper hkeys
    · exact flatSetVariable_agree _ _ hbelow hkeys

theorem flatValidateKey_agree (hbelow : SameBelow first second same)
    (hsame : SameEntry same field field') (form : YamlDocument.FlatForm) (allowMetadata : Bool) :
    Agree Eq (first.flatValidateKey form allowMetadata field)
      (second.flatValidateKey form allowMetadata field') := by
  rw [YamlDocument.flatValidateKey, YamlDocument.flatValidateKey]
  have hkey := fieldDecode_agree hbelow hsame
  generalize first.fieldDecode field true = key at hkey ⊢
  generalize second.fieldDecode field' true = key' at hkey ⊢
  cases hkey with
  | error => exact refuseAt_agree _ _ _ _
  | ok hkey =>
      subst hkey
      simp only
      split_ifs
      · exact .ok rfl
      · exact refuseAt_agree _ _ _ _

theorem flatValidateKeys_agree (hbelow : SameBelow first second same)
    (hsame : SameNode same map map') (form : YamlDocument.FlatForm) (allowMetadata : Bool) :
    Agree Eq (first.flatValidateKeys map form allowMetadata)
      (second.flatValidateKeys map' form allowMetadata) := by
  rw [YamlDocument.flatValidateKeys, YamlDocument.flatValidateKeys]
  have hchildren := hbelow.children hsame
  generalize first.children map = fields at hchildren ⊢
  generalize second.children map' = fields' at hchildren ⊢
  induction hchildren with
  | nil => exact .ok rfl
  | cons hfield _ ih =>
      exact (flatValidateKey_agree hbelow hfield form allowMetadata).bind fun _ _ _ => ih

/-! ## Named nodes -/

theorem SameBelow.keysAlike (hbelow : SameBelow first second same) (hsame : SameNode same map map')
    (keys : List String) : KeysAlike first second same keys map map' :=
  ⟨(hbelow.kinds hsame).1, fun key _ => hbelow.lookup_eq hsame (ascii key)⟩

theorem namedField_agree (hbelow : SameBelow first second same)
    (hsame : SameEntry same field field') (type : OrchType) (typeLower : Bytes)
    (state : NamedRows × Bool × Bool) :
    Agree Eq (first.namedField type typeLower index state field)
      (second.namedField type typeLower index state field') := by
  obtain ⟨rows, hasChild, hasChildren⟩ := state
  simp only [YamlDocument.namedField]
  have hkey := fieldDecode_agree hbelow hsame
  generalize first.fieldDecode field true = key at hkey ⊢
  generalize second.fieldDecode field' true = key' at hkey ⊢
  cases hkey with
  | error => exact refuseAt_agree _ _ _ _
  | @ok key _ hkey =>
      subst hkey
      simp only
      split_ifs
      · exact .ok rfl
      · exact .ok rfl
      · cases canonicalParam type.spec key.bytes with
        | none => exact refuseAt_agree _ _ _ _
        | some _ =>
            refine (flatScalar_agree hbelow hsame.1 _ _).bind fun text text' htext => ?_
            subst htext
            refine (addParam_agree _ _ _ _ _ _ _).bind fun next next' hnext => ?_
            subst hnext
            exact .ok rfl

theorem namedSequence_agree (hbelow : SameBelow first second same)
    (hdeeper : DeeperAlike same deeper deeper') (hsame : SameNode same field field')
    (type : OrchType) (typeLower : Bytes) :
    Agree Eq (first.namedSequence deeper field type typeLower index rows)
      (second.namedSequence deeper' field' type typeLower index rows) := by
  rw [YamlDocument.namedSequence, YamlDocument.namedSequence]
  split_ifs
  · exact refuseAt_agree _ _ _ _
  · refine (parseChildren_agree hbelow hdeeper hsame _ _).bind fun next next' hnext => ?_
    subst hnext
    exact (validateNamedRow_agree _ _ _ _ _).bind fun _ _ _ => .ok rfl

theorem namedBranch_agree (hbelow : SameBelow first second same)
    (hdeeper : DeeperAlike same deeper deeper') (hsame : SameNode same field field')
    (type : OrchType) (typeLower : Bytes) (hasChild hasChildren : Bool) :
    Agree Eq (first.namedBranch depth deeper field type typeLower index hasChild hasChildren rows)
      (second.namedBranch depth deeper' field' type typeLower index hasChild hasChildren rows) := by
  rw [YamlDocument.namedBranch, YamlDocument.namedBranch]
  split
  · generalize (if hasChildren = true then "children" else "child") = name
    have hget := (hbelow.keysAlike hsame [name]).get? (List.mem_singleton_self name)
    generalize first.get? field name = found at hget ⊢
    generalize second.get? field' name = found' at hget ⊢
    cases hget with
    | none => exact refuseAt_agree _ _ _ _
    | some hnode =>
        simp only
        split_ifs
        · exact refuseAt_agree _ _ _ _
        · exact parseChildren_agree hbelow hdeeper hnode _ _
        · exact flatBranch_agree hbelow hdeeper hnode _ _ _
  · exact .ok rfl

theorem namedMapping_agree (hbelow : SameBelow first second same)
    (hdeeper : DeeperAlike same deeper deeper') (hsame : SameNode same field field')
    (type : OrchType) (typeLower : Bytes) :
    Agree Eq (first.namedMapping depth deeper field type typeLower index rows)
      (second.namedMapping depth deeper' field' type typeLower index rows) := by
  rw [YamlDocument.namedMapping, YamlDocument.namedMapping]
  refine Agree.bind (Agree.foldlM (hbelow.children hsame)
    (fun state state' node node' hstate hnode => ?_) rfl) fun state state' hstate => ?_
  · subst hstate
    exact namedField_agree _ hbelow hnode _ _ _
  subst hstate
  obtain ⟨next, hasChild, hasChildren⟩ := state
  simp only
  split_ifs
  · exact refuseAt_agree _ _ _ _
  · refine (namedBranch_agree _ _ _ hbelow hdeeper hsame _ _ _ _).bind fun later later' hlater => ?_
    subst hlater
    exact (validateNamedRow_agree _ _ _ _ _).bind fun _ _ _ => .ok rfl

theorem namedScalar_agree (hbelow : SameBelow first second same)
    (hsame : SameNode same field field') (type : OrchType) (typeLower : Bytes) :
    Agree Eq (first.namedScalar field type typeLower index rows)
      (second.namedScalar field' type typeLower index rows) := by
  rw [YamlDocument.namedScalar, YamlDocument.namedScalar, (hbelow.kinds hsame).2.2]
  split
  · exact refuseAt_agree _ _ _ _
  split
  · refine (flatScalar_agree hbelow hsame _ _).bind fun text text' htext => ?_
    subst htext
    refine (addParam_agree _ _ _ _ _ _ _).bind fun next next' hnext => ?_
    subst hnext
    exact (validateNamedRow_agree _ _ _ _ _).bind fun _ _ _ => .ok rfl
  · exact refuseAt_agree _ _ _ _
  · exact refuseAt_agree _ _ _ _

theorem parseNamedEntry_agree (hbelow : SameBelow first second same)
    (hdeeper : DeeperAlike same deeper deeper') (hsame : SameEntry same field field')
    (parent : Option Nat) :
    Agree Eq (first.parseNamedEntry depth deeper field parent rows)
      (second.parseNamedEntry depth deeper' field' parent rows) := by
  obtain ⟨hmap, hseq, -⟩ := hbelow.kinds hsame.1
  rw [YamlDocument.parseNamedEntry, YamlDocument.parseNamedEntry, hmap, hseq]
  split
  · exact .error _ _
  split
  · exact .error _ _
  have hkey := fieldDecode_agree hbelow hsame
  generalize first.fieldDecode field true = key at hkey ⊢
  generalize second.fieldDecode field' true = key' at hkey ⊢
  cases hkey with
  | error => exact refuseAt_agree _ _ _ _
  | @ok key _ hkey =>
      subst hkey
      simp only
      split
      · exact refuseAt_agree _ _ _ _
      split
      · exact refuseAt_agree _ _ _ _
      split_ifs
      · exact namedSequence_agree _ _ hbelow hdeeper hsame.1 _ _
      · exact namedMapping_agree _ _ _ hbelow hdeeper hsame.1 _ _
      · exact namedScalar_agree _ _ hbelow hsame.1 _ _

theorem parseAt_alike (hbelow : SameBelow first second same)
    (hdeeper : DeeperAlike same deeper deeper') :
    DeeperAlike same (first.parseAt depth deeper) (second.parseAt depth deeper') := by
  intro map map' parent rows hsame
  have hkeys := hbelow.keysAlike hsame formKeys
  have hform : first.nestedForm map = second.nestedForm map' := by
    have hhas (key : String) : first.has map (ascii key) = second.has map' (ascii key) :=
      (hbelow.keysAlike hsame [key]).has (List.mem_singleton_self key)
    simp only [YamlDocument.nestedForm, hhas]
  rw [YamlDocument.parseAt, YamlDocument.parseAt, hkeys.isMap, hform]
  split
  · exact flatParse_agree _ _ hbelow hdeeper hkeys _ _ _
      (flatValidateKeys_agree hbelow hsame _ _)
  split
  · exact .error _ _
  split
  · exact refuseAt_agree _ _ _ _
  have hchildren := hbelow.children hsame
  generalize first.children map = entries at hchildren ⊢
  generalize second.children map' = entries' at hchildren ⊢
  cases hchildren with
  | nil => exact refuseAt_agree _ _ _ _
  | cons hentry hrest =>
      cases hrest with
      | nil => exact parseNamedEntry_agree _ _ hbelow hdeeper hentry _
      | cons => exact refuseAt_agree _ _ _ _

/-- Nodes with the same contents are read alike. -/
theorem parse_alike (hbelow : SameBelow first second same) (levels : Nat) :
    DeeperAlike same (first.parse levels) (second.parse levels) := by
  induction levels with
  | zero => exact parseAt_alike _ hbelow fun _ _ _ _ _ => .error _ _
  | succ levels ih => exact parseAt_alike _ hbelow ih

end Readers

/-! ## Tasks with more metadata -/

/-- More fields among those of a mapping, under some of the names. -/
inductive Inserted (second : YamlDocument) (same : Nat → Nat → Prop) (names : List String) :
    List (Nat × Nat) → List (Nat × Nat) → Prop
  | nil : Inserted second same names [] []
  | keep {pair pair' : Nat × Nat} {rest rest' : List (Nat × Nat)} :
      same pair.1 pair'.1 → same pair.2 pair'.2 → Inserted second same names rest rest' →
      Inserted second same names (pair :: rest) (pair' :: rest')
  | add {text : CString} {pair' : Nat × Nat} {rest rest' : List (Nat × Nat)} :
      second.scalarText (some pair'.1) = .ok text → text.bytes ∈ names.map ascii →
      Inserted second same names rest rest' → Inserted second same names rest (pair' :: rest')

/-- A task of one document with more fields in another.  The fields that it had keep their
values, and other keys are looked up as before. -/
structure Widened (first second : YamlDocument) (same : Nat → Nat → Prop) (names : List String)
    (task task' : YamlNode) : Prop where
  below : SameBelow first second same
  fields : ∃ pairs pairs', first.contentOf task.node = some (.mapping pairs) ∧
    second.contentOf task'.node = some (.mapping pairs') ∧ Inserted second same names pairs pairs'
  lookup : ∀ key, key ∉ names.map ascii →
    Option.Rel same (first.lookupOf task.node key) (second.lookupOf task'.node key)

/-- The fields of a task that say nothing about its runner, with the names that
`praktor_yaml_task_metadata_create` has for them. -/
def pureMetadata : List String :=
  ["name", "description", "depends_on", "vars", "env", "dotEnv", "when", "each", "triggers",
    "working_dir", "silent", "sources", "generates", "finally"]

section Tasks

variable {first second : YamlDocument} {same : Nat → Nat → Prop} {names : List String}
  {task task' : YamlNode}

theorem Widened.keysAlike (hwider : Widened first second same names task task')
    (hnames : ∀ key ∈ formKeys, ascii key ∉ names.map ascii) :
    KeysAlike first second same formKeys task task' := by
  obtain ⟨pairs, pairs', hfirst, hsecond, -⟩ := hwider.fields
  refine ⟨?_, fun key hkey => hwider.lookup _ (hnames key hkey)⟩
  simp [YamlDocument.isMap, hfirst, hsecond]

/-- The keys that were added are admitted beside every form. -/
theorem Widened.flatValidateKeys (hwider : Widened first second same names task task')
    (hnames : ∀ name ∈ names, YamlDocument.flatTaskMetadataKey (ascii name) = true)
    (form : YamlDocument.FlatForm) :
    Agree Eq (first.flatValidateKeys task form true) (second.flatValidateKeys task' form true) := by
  obtain ⟨pairs, pairs', hfirst, hsecond, hinserted⟩ := hwider.fields
  simp only [YamlDocument.flatValidateKeys, YamlDocument.children, hfirst, hsecond]
  clear hfirst hsecond
  induction hinserted with
  | nil => exact .ok rfl
  | @keep pair pair' _ _ hkey hvalue _ ih =>
      have hentry : SameEntry same ⟨some pair.2, some pair.1⟩ ⟨some pair'.2, some pair'.1⟩ :=
        ⟨.some hvalue, .some hkey⟩
      exact (flatValidateKey_agree hwider.below hentry form true).bind fun _ _ _ => ih
  | @add text pair' _ _ htext hname _ ih =>
      obtain ⟨name, hname, hbytes⟩ := List.mem_map.mp hname
      have hdecoded : second.fieldDecode ⟨some pair'.2, some pair'.1⟩ true = .ok text := htext
      have hkey : second.flatValidateKey form true ⟨some pair'.2, some pair'.1⟩ = .ok () := by
        simp [YamlDocument.flatValidateKey, hdecoded, ← hbytes, hnames name hname]
      rw [List.map_cons]
      change Agree Eq _ (second.flatValidateKey form true _ >>= fun _ => _)
      rw [hkey]
      exact ih

theorem Widened.taskForm (hwider : Widened first second same names task task')
    (hnames : ∀ key ∈ formKeys, ascii key ∉ names.map ascii) (nodeType : Bytes) :
    first.taskForm task nodeType = second.taskForm task' nodeType := by
  simp only [YamlDocument.taskForm, (hwider.keysAlike hnames).has (show "child" ∈ formKeys by decide)]

/-- Metadata that the parser knows changes no tree. -/
theorem Widened.flatRows (hwider : Widened first second same names task task')
    (hforms : ∀ key ∈ formKeys, ascii key ∉ names.map ascii)
    (hnames : ∀ name ∈ names, YamlDocument.flatTaskMetadataKey (ascii name) = true)
    {nodeType : CString} (hform : (first.taskForm task nodeType.bytes).isSome = true) :
    Agree Eq (first.flatRows task nodeType) (second.flatRows task' nodeType) := by
  obtain ⟨form, hform⟩ := Option.isSome_iff_exists.mp hform
  rw [YamlDocument.flatRows, YamlDocument.flatRows, ← hwider.taskForm hforms, hform]
  exact flatParse_agree _ _ hwider.below (parse_alike hwider.below _) (hwider.keysAlike hforms) _ _ _
    (hwider.flatValidateKeys hnames form)

end Tasks

/-- A task in a flat form is read as the same tree whatever metadata is added to it. -/
theorem orchFromFlatYaml_metadata {first second : YamlDocument} {same : Nat → Nat → Prop}
    {task task' : YamlNode} {nodeType : CString} {tree : OrchTree}
    (hwider : Widened first second same pureMetadata task task')
    (hform : (first.taskForm task nodeType.bytes).isSome = true)
    (htree : orchFromFlatYaml first task nodeType = .ok tree) :
    orchFromFlatYaml second task' nodeType = .ok tree := by
  have hrows := hwider.flatRows (by decide) (by decide) hform
  rw [orchFromFlatYaml] at htree ⊢
  generalize first.flatRows task nodeType = rows at hrows htree
  generalize second.flatRows task' nodeType = rows' at hrows ⊢
  cases hrows with
  | error => simp [bind, Except.bind] at htree
  | ok hsame =>
      subst hsame
      exact htree

/-- A document with plain keys. -/
def plainDocument (cells : List YamlCell) : YamlDocument :=
  ⟨cells, some 0, YamlDocument.plainLookup cells⟩

theorem scalarText_of_plainText {cells : List YamlCell} {place : Nat} {bytes : Bytes}
    (hplain : YamlDocument.plainText cells place = some bytes) :
    ∃ text, (plainDocument cells).scalarText (some place) = .ok text ∧ text.bytes = bytes := by
  rw [YamlDocument.plainText] at hplain
  split at hplain
  · rename_i text hcontent
    have hcell : ((plainDocument cells).cells[place]?).map YamlCell.content =
        some (.scalar text) := hcontent
    have hresolve : (plainDocument cells).resolveAlias (some place) = some place := by
      rw [YamlDocument.resolveAlias, Option.bind_some, YamlDocument.followAlias, hcell]
    refine ⟨text, ?_, Option.some.inj hplain⟩
    simp [YamlDocument.scalarText, YamlDocument.contentOf, hresolve, hcell]
  · simp at hplain

/-- With plain keys the lookups follow from the fields. -/
theorem Inserted.find? {cells cells' : List YamlCell} {same : Nat → Nat → Prop}
    {names : List String} {pairs pairs' : List (Nat × Nat)}
    (hinserted : Inserted (plainDocument cells') same names pairs pairs')
    (htexts : ∀ place place', same place place' →
      YamlDocument.plainText cells place = YamlDocument.plainText cells' place')
    {key : Bytes} (hkey : key ∉ names.map ascii) :
    Option.Rel same
      ((pairs.find? fun pair => YamlDocument.plainText cells pair.1 = some key).map Prod.snd)
      ((pairs'.find? fun pair => YamlDocument.plainText cells' pair.1 = some key).map
        Prod.snd) := by
  induction hinserted with
  | nil => exact .none
  | keep hname hvalue _ ih =>
      rw [List.find?_cons, List.find?_cons, htexts _ _ hname]
      split
      · exact .some hvalue
      · exact ih
  | @add text pair' _ _ htext hname _ ih =>
      have hother : YamlDocument.plainText cells' pair'.1 ≠ some key := by
        intro hplain
        obtain ⟨found, hfound, hbytes⟩ := scalarText_of_plainText hplain
        obtain rfl := Except.ok.inj (htext.symm.trans hfound)
        exact hkey (hbytes ▸ hname)
      rw [List.find?_cons, decide_eq_false hother]
      exact ih

/-- A task that sets a variable: its name, and the two parts of its form. -/
def variableTask (pairs : List (Nat × Nat)) (more : List YamlCell) : List YamlCell :=
  let scalar (text : String) : YamlCell := ⟨.scalar (.literal text), 1, 1⟩
  ⟨.mapping pairs, 1, 1⟩ :: scalar "name" :: scalar "first" :: scalar "set_variable" ::
    scalar "key" :: scalar "value" :: more

/-- The scalars that two versions of the task share. -/
def sharedPlace (place place' : Nat) : Prop := place = place' ∧ 1 ≤ place ∧ place ≤ 5

instance (place place' : Nat) : Decidable (sharedPlace place place') :=
  inferInstanceAs (Decidable (_ ∧ _))

/-- Two versions of the task, the second with more fields. -/
theorem variableTask_widened {names : List String} {pairs pairs' : List (Nat × Nat)}
    {more more' : List YamlCell}
    (hinserted : Inserted (plainDocument (variableTask pairs' more')) sharedPlace names pairs
      pairs') :
    Widened (plainDocument (variableTask pairs more)) (plainDocument (variableTask pairs' more'))
      sharedPlace names ⟨some 0, none⟩ ⟨some 0, none⟩ := by
  refine ⟨⟨?_, ?_⟩, ⟨pairs, pairs', rfl, rfl, hinserted⟩, fun key hkey => ?_⟩
  · rintro place _ ⟨rfl, hfirst, hlast⟩
    interval_cases place <;> exact .scalar _
  · rintro place _ key ⟨rfl, hfirst, hlast⟩
    interval_cases place <;> exact .none
  · refine hinserted.find? ?_ hkey
    rintro place _ ⟨rfl, hfirst, hlast⟩
    interval_cases place <;> rfl

/-- The fields of the task. -/
def variablePairs : List (Nat × Nat) := [(1, 2), (3, 4), (5, 2)]

theorem orchFromFlatYaml_metadata_when :
    ∃ tree, orchFromFlatYaml (plainDocument (variableTask variablePairs [])) ⟨some 0, none⟩
        (.literal "set_variable") = .ok tree ∧
      orchFromFlatYaml (plainDocument (variableTask ((6, 2) :: variablePairs)
        [⟨.scalar (.literal "when"), 1, 1⟩])) ⟨some 0, none⟩ (.literal "set_variable") =
          .ok tree := by
  obtain ⟨tree, htree⟩ := exists_eq_ok
    (show (orchFromFlatYaml (plainDocument (variableTask variablePairs [])) ⟨some 0, none⟩
      (.literal "set_variable")).isOk = true by decide +kernel)
  have hinserted : Inserted (plainDocument (variableTask ((6, 2) :: variablePairs)
      [⟨.scalar (.literal "when"), 1, 1⟩])) sharedPlace pureMetadata variablePairs
        ((6, 2) :: variablePairs) := by
    refine .add rfl (by decide) ?_
    exact .keep (by decide) (by decide) (.keep (by decide) (by decide)
      (.keep (by decide) (by decide) .nil))
  exact ⟨tree, htree,
    orchFromFlatYaml_metadata (variableTask_widened hinserted) (by decide +kernel) htree⟩

/-- The task with a number of attempts. -/
def retriedTask : YamlDocument :=
  plainDocument (variableTask (variablePairs ++ [(6, 7)])
    [⟨.scalar (.literal "retries"), 1, 1⟩, ⟨.mapping [(8, 9)], 1, 1⟩,
      ⟨.scalar (.literal "count"), 1, 1⟩, ⟨.scalar (.literal "2"), 1, 1⟩])

/-- `retries` is metadata of a task and no flat form has it. -/
theorem orchFromFlatYaml_retries :
    Widened (plainDocument (variableTask variablePairs [])) retriedTask sharedPlace
        ("retries" :: pureMetadata) ⟨some 0, none⟩ ⟨some 0, none⟩ ∧
      ((plainDocument (variableTask variablePairs [])).taskForm ⟨some 0, none⟩
        (ascii "set_variable")).isSome = true ∧
      (orchFromFlatYaml (plainDocument (variableTask variablePairs [])) ⟨some 0, none⟩
        (.literal "set_variable")).isOk = true ∧
      (retriedTask.taskMetadataCreate ⟨some 0, none⟩).isOk = true ∧
      (orchFromFlatYaml retriedTask ⟨some 0, none⟩ (.literal "set_variable")).isOk = false := by
  refine ⟨variableTask_widened ?_, by decide +kernel, by decide +kernel, by decide +kernel,
    by decide +kernel⟩
  refine .keep (by decide) (by decide) (.keep (by decide) (by decide)
    (.keep (by decide) (by decide) (.add rfl (by decide) .nil)))

end Praktor.Yaml
