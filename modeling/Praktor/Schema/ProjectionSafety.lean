/-
# The policy of the editor stays

A merge that succeeds lays its source over the destination: at every path the destination keeps
what it had, or gets what the source has there.  The projection merges the shape of one message
after the other, and the result is the policy with one overlay, that of all messages.

A conflict between the policy and the contract makes the projection fail, and then there is no
output.
-/

import Praktor.Math.Run
import Praktor.Schema.Projection

namespace Praktor.Schema

open Praktor.Data Praktor.Data.Json Praktor.Math

theorem fail_ne_ok {α : Type} (message : String) (detail : Bytes) (value : α) :
    fail message detail ≠ .ok value := nofun

/-! ## Required names -/

theorem checkPrior_eq_ok {name : Bytes} {existing : List Json}
    (hcheck : checkPrior name existing = .ok ()) :
    ∀ item ∈ existing, ∃ text, item = .string text ∧ text ≠ name := by
  induction existing with
  | nil => exact fun item hitem => absurd hitem List.not_mem_nil
  | cons prior rest ih =>
      cases prior with
      | string text =>
          rw [checkPrior] at hcheck
          split_ifs at hcheck with hsame
          · exact absurd hcheck (fail_ne_ok _ _ _)
          · exact List.forall_mem_cons.mpr ⟨⟨text, rfl, hsame⟩, ih hcheck⟩
      | _ => exact absurd hcheck (fail_ne_ok _ _ _)

/-- Names that were added continue the list. -/
theorem addRequired_eq_ok {items existing joined : List Json}
    (hadd : items.foldlM addRequired existing = .ok joined) :
    joined = existing ++ items ∧ Extends existing items := by
  induction items generalizing existing with
  | nil =>
      obtain rfl := Except.ok.inj hadd
      exact ⟨(List.append_nil _).symm, by simp, List.nodup_nil, by simp, fun hne => absurd rfl hne⟩
  | cons item rest ih =>
      rw [List.foldlM_cons] at hadd
      obtain ⟨next, hitem, hrest⟩ := except_bind_eq_ok.mp hadd
      cases item with
      | string name =>
          obtain ⟨⟨⟩, hcheck, hnext⟩ := except_bind_eq_ok.mp hitem
          obtain rfl := Except.ok.inj hnext
          obtain ⟨rfl, hextends⟩ := ih hrest
          have hprior := checkPrior_eq_ok hcheck
          have hnew : Json.string name ∉ existing := by
            intro hmem
            obtain ⟨text, hsame, hne⟩ := hprior _ hmem
            exact hne (Json.string.inj hsame).symm
          refine ⟨by simp, ?_, ?_, ?_, ?_⟩
          · exact List.forall_mem_cons.mpr ⟨⟨name, rfl⟩, hextends.texts⟩
          · refine List.nodup_cons.mpr ⟨fun hmem => ?_, hextends.nodup⟩
            exact hextends.fresh _ hmem (List.mem_append_right _ (List.mem_singleton_self _))
          · refine List.forall_mem_cons.mpr ⟨hnew, fun other hother hmem => ?_⟩
            exact hextends.fresh _ hother (List.mem_append_left _ hmem)
          · intro _ other hother
            obtain ⟨text, htext, -⟩ := hprior other hother
            exact ⟨text, htext⟩
      | _ => exact absurd hitem (fail_ne_ok _ _ _)

/-! ## Merging -/

/-- What merges objects lays one over the other. -/
def Merges (deeper : Members → Members → Except SchemaFailure Members) : Prop :=
  ∀ destination source result, (Json.object source).Distinct →
    deeper destination source = .ok result →
    Overlaid (some (.object destination)) (some (.object source)) (some (.object result))

section Merging

variable {deeper : Members → Members → Except SchemaFailure Members}

/-- One member is laid over what its key has; the other keys stay. -/
theorem mergeMember_eq_ok (hdeeper : Merges deeper) {destination result : Members} {key : Bytes}
    {value : Json} (hvalue : value.Distinct)
    (hmerge : mergeMember deeper destination (key, value) = .ok result) :
    MemberOverlaid key (destination.lookup key) (some value) (result.lookup key) ∧
      ∀ other, other ≠ key → result.lookup other = destination.lookup other := by
  have hinsert (changed : Json) (hresult : insertMember key changed destination = result) :
      result.lookup key = some changed ∧
        ∀ other, other ≠ key → result.lookup other = destination.lookup other := by
    rw [← hresult]
    refine ⟨?_, fun other hother => ?_⟩
    · rw [lookup_insertMember, if_pos rfl]
    · rw [lookup_insertMember, if_neg hother]
  cases hbefore : destination.lookup key with
  | none =>
      simp only [mergeMember, hbefore] at hmerge
      obtain ⟨hafter, hkept⟩ := hinsert _ (Except.ok.inj hmerge)
      rw [hafter]
      exact ⟨.added key value, hkept⟩
  | some existing =>
      cases existing with
      | array existing =>
          simp only [mergeMember, hbefore] at hmerge
          split_ifs at hmerge with hkey
          · cases value with
            | array items =>
                obtain ⟨joined, hadd, hresult⟩ := except_bind_eq_ok.mp hmerge
                obtain ⟨rfl, hextends⟩ := addRequired_eq_ok hadd
                obtain ⟨hafter, hkept⟩ := hinsert _ (Except.ok.inj hresult)
                rw [hafter]
                exact ⟨.required hkey hextends, hkept⟩
            | _ => exact absurd hmerge (fail_ne_ok _ _ _)
          · exact absurd hmerge (fail_ne_ok _ _ _)
      | object existing =>
          cases value with
          | object source =>
              simp only [mergeMember, hbefore] at hmerge
              obtain ⟨merged, hmerged, hresult⟩ := except_bind_eq_ok.mp hmerge
              obtain ⟨hafter, hkept⟩ := hinsert _ (Except.ok.inj hresult)
              rw [hafter]
              exact ⟨.nested key (hdeeper _ _ _ hvalue hmerged), hkept⟩
          | _ =>
              simp only [mergeMember, hbefore] at hmerge
              exact absurd hmerge (fail_ne_ok _ _ _)
      | _ =>
          simp only [mergeMember, hbefore] at hmerge
          exact absurd hmerge (fail_ne_ok _ _ _)

/-- The members of a source one after the other. -/
theorem mergeMembers_eq_ok (hdeeper : Merges deeper) {source destination result : Members}
    (hsource : (Json.object source).Distinct)
    (hmerge : source.foldlM (mergeMember deeper) destination = .ok result) :
    Overlaid (some (.object destination)) (some (.object source)) (some (.object result)) := by
  apply overlaid_members
  induction source generalizing destination with
  | nil =>
      obtain rfl := Except.ok.inj hmerge
      exact fun key => .kept key _
  | cons member rest ih =>
      obtain ⟨key, value⟩ := member
      obtain ⟨hkeys, hvalue, hvalues⟩ := hsource
      obtain ⟨hkey, hrest⟩ := List.nodup_cons.mp hkeys
      rw [List.foldlM_cons] at hmerge
      obtain ⟨next, hmember, hlater⟩ := except_bind_eq_ok.mp hmerge
      obtain ⟨hfirst, hkept⟩ := mergeMember_eq_ok hdeeper hvalue hmember
      have hothers := ih ⟨hrest, hvalues⟩ hlater
      intro other
      rw [lookup_member]
      by_cases hother : other = key
      · subst hother
        have habsent : rest.lookup other = none := lookup_eq_none_of_notMem hkey
        have hlast := hothers other
        rw [habsent] at hlast
        have hsame : result.lookup other = next.lookup other := hlast.eq_before
        rwa [if_pos rfl, hsame]
      · rw [if_neg hother, ← hkept other hother]
        exact hothers other

/-- `merge` lays its source over the destination. -/
theorem merges_merge (levels : Nat) : Merges (merge levels) := by
  induction levels with
  | zero => exact fun _ _ _ _ hmerge => absurd hmerge (fail_ne_ok _ _ _)
  | succ levels ih => exact fun _ _ _ hsource hmerge => mergeMembers_eq_ok ih hsource hmerge

end Merging

/-! ## Shapes -/

section Shapes

variable {library : SchemaLibrary} {contract : IdlContract}

theorem distinct_nil : (Json.object []).Distinct := ⟨List.nodup_nil, trivial⟩

theorem distinct_text {shape : Members} (hshape : (Json.object shape).Distinct) (key : String)
    (value : Bytes) : (Json.object (text key value shape)).Distinct :=
  hshape.insertMember _ trivial

theorem distinct_literal {shape result : Members} (hshape : (Json.object shape).Distinct)
    {key : String} {value : Option Bytes} (hliteral : literal library key value shape = .ok result) :
    (Json.object result).Distinct := by
  rw [literal] at hliteral
  cases hparsed : value.bind library.parse with
  | none =>
      rw [hparsed] at hliteral
      exact absurd hliteral (fail_ne_ok _ _ _)
  | some parsed =>
      rw [hparsed] at hliteral
      obtain rfl := Except.ok.inj hliteral
      obtain ⟨text, -, htext⟩ := Option.bind_eq_some_iff.mp hparsed
      exact hshape.insertMember _ (library.parse_distinct text parsed htext)

theorem distinct_optionalLiteral {shape result : Members} (hshape : (Json.object shape).Distinct)
    {key : String} {value : Option Bytes}
    (hliteral : optionalLiteral library key value shape = .ok result) :
    (Json.object result).Distinct := by
  rw [optionalLiteral] at hliteral
  split_ifs at hliteral
  · exact distinct_literal hshape hliteral
  · rwa [← Except.ok.inj hliteral]

theorem distinct_addConstraint {kind : DataKind} {shape result : Members}
    (hshape : (Json.object shape).Distinct) {constraint : IdlConstraint}
    (hadd : addConstraint library kind shape constraint = .ok result) :
    (Json.object result).Distinct := by
  rw [addConstraint] at hadd
  split_ifs at hadd
  · exact distinct_literal hshape hadd
  · exact distinct_literal hshape hadd
  · obtain ⟨next, hfirst, hsecond⟩ := except_bind_eq_ok.mp hadd
    exact distinct_optionalLiteral (distinct_optionalLiteral hshape hfirst) hsecond
  · obtain ⟨next, hfirst, hsecond⟩ := except_bind_eq_ok.mp hadd
    exact distinct_optionalLiteral (distinct_optionalLiteral hshape hfirst) hsecond
  · exact absurd hadd (fail_ne_ok _ _ _)
  · cases hpattern : constraint.pattern with
    | none =>
        rw [hpattern] at hadd
        exact nomatch hadd
    | some pattern =>
        rw [hpattern] at hadd
        obtain rfl := Except.ok.inj hadd
        exact distinct_text hshape _ _
  · exact absurd hadd (fail_ne_ok _ _ _)

theorem distinct_addConstraints {kind : DataKind} {constraints : List IdlConstraint}
    {shape result : Members} (hshape : (Json.object shape).Distinct)
    (hadd : constraints.foldlM (addConstraint library kind) shape = .ok result) :
    (Json.object result).Distinct := by
  induction constraints generalizing shape with
  | nil => rwa [← Except.ok.inj hadd]
  | cons constraint rest ih =>
      rw [List.foldlM_cons] at hadd
      obtain ⟨next, hfirst, hrest⟩ := except_bind_eq_ok.mp hadd
      exact ih (distinct_addConstraint hshape hfirst) hrest

theorem distinct_typeShape {field : IdlField} {items : Bytes → Except SchemaFailure Members}
    (hitems : ∀ inner shape, items inner = .ok shape → (Json.object shape).Distinct)
    {kind : DataKind} {result : Members}
    (htype : typeShape contract field items kind = .ok result) : (Json.object result).Distinct := by
  have hplain (key : String) (value : Bytes)
      (hresult : (Except.ok (text key value []) : Except SchemaFailure Members) = .ok result) :
      (Json.object result).Distinct := by
    rw [← Except.ok.inj hresult]
    exact distinct_text distinct_nil key value
  cases kind with
  | struct =>
      rw [typeShape] at htype
      split_ifs at htype
      · exact absurd htype (fail_ne_ok _ _ _)
      · exact hplain _ _ htype
      · exact hplain _ _ htype
  | sequence =>
      rw [typeShape] at htype
      split at htype
      · obtain ⟨shape, hshape, hresult⟩ := except_bind_eq_ok.mp htype
        obtain rfl := Except.ok.inj hresult
        exact (distinct_text distinct_nil _ _).insertMember _ (hitems _ _ hshape)
      · exact absurd htype (fail_ne_ok _ _ _)
  | other => exact absurd htype (fail_ne_ok _ _ _)
  | _ => exact hplain _ _ htype

theorem distinct_fieldShape (levels : Nat) {field : IdlField} {result : Members}
    (hshape : fieldShape library contract levels field = .ok result) :
    (Json.object result).Distinct := by
  induction levels generalizing field result with
  | zero => exact absurd hshape (fail_ne_ok _ _ _)
  | succ levels ih =>
      rw [fieldShape] at hshape
      cases hkind : library.resolve contract field with
      | none =>
          rw [hkind] at hshape
          exact absurd hshape (fail_ne_ok _ _ _)
      | some kind =>
          rw [hkind] at hshape
          obtain ⟨typed, htype, hshape⟩ := except_bind_eq_ok.mp hshape
          have htyped := distinct_typeShape (fun inner shape hinner => ih hinner) htype
          split at hshape
          · exact absurd hshape (fail_ne_ok _ _ _)
          obtain ⟨constrained, hconstraints, hshape⟩ := except_bind_eq_ok.mp hshape
          have hconstrained := distinct_addConstraints htyped hconstraints
          cases hdefault : field.defaultValue with
          | none =>
              rw [hdefault] at hshape
              rwa [← Except.ok.inj hshape]
          | some value =>
              rw [hdefault] at hshape
              simp only at hshape
              split_ifs at hshape
              · rw [← Except.ok.inj hshape]
                exact distinct_text hconstrained _ _
              · exact distinct_literal hconstrained hshape

/-- The names of fields that were added: none is empty, and none is there twice. -/
structure FieldsAdded (fields : List IdlField) (before after : Members × List Json)
    (names : List Bytes) : Prop where
  projected : List.Forall₂ (fun field name => projectedName field = .ok name) fields names
  distinct : (Json.object after.1).Distinct
  texts : ∀ item ∈ after.2, item.Distinct
  nodup : names.Nodup
  nonempty : [] ∉ names
  fresh : ∀ name ∈ names, before.1.lookup name = none

theorem addFields_eq_ok {fields : List IdlField} {state next : Members × List Json}
    (hstate : (Json.object state.1).Distinct) (htexts : ∀ item ∈ state.2, item.Distinct)
    (hadd : fields.foldlM (addField library contract) state = .ok next) :
    ∃ names, FieldsAdded fields state next names := by
  induction fields generalizing state with
  | nil =>
      obtain rfl := Except.ok.inj hadd
      exact ⟨[], .nil, hstate, htexts, List.nodup_nil, List.not_mem_nil, by simp⟩
  | cons field rest ih =>
      rw [List.foldlM_cons] at hadd
      obtain ⟨between, hfield, hrest⟩ := except_bind_eq_ok.mp hadd
      obtain ⟨name, hname, hfield⟩ := except_bind_eq_ok.mp hfield
      split at hfield
      · exact absurd hfield (fail_ne_ok _ _ _)
      rename_i hrefused
      obtain ⟨shape, hshape, hbetween⟩ := except_bind_eq_ok.mp hfield
      obtain rfl := Except.ok.inj hbetween
      rw [not_or, Option.not_isSome_iff_eq_none] at hrefused
      obtain ⟨hempty, habsent⟩ := hrefused
      have hrequired : ∀ item ∈ (if field.isOptional then state.2 else state.2 ++ [.string name]),
          item.Distinct := by
        split
        · exact htexts
        · refine List.forall_mem_append.mpr ⟨htexts, fun item hitem => ?_⟩
          rw [List.mem_singleton.mp hitem]
          trivial
      obtain ⟨names, hprojected, hdistinct, hlater, hnodup, hnonempty, hfresh⟩ :=
        ih (hstate.insertMember name (distinct_fieldShape _ hshape)) hrequired hrest
      have hnew : ∀ other ∈ names, other ≠ name ∧ state.1.lookup other = none := by
        intro other hother
        have hlookup := hfresh other hother
        rw [lookup_insertMember] at hlookup
        split_ifs at hlookup with hsame
        exact ⟨hsame, hlookup⟩
      refine ⟨name :: names, .cons hname hprojected, hdistinct, hlater, ?_, ?_, ?_⟩
      · exact List.nodup_cons.mpr ⟨fun hmem => (hnew name hmem).1 rfl, hnodup⟩
      · rw [List.mem_cons, not_or]
        exact ⟨Ne.symm hempty, hnonempty⟩
      · exact List.forall_mem_cons.mpr ⟨habsent, fun other hother => (hnew other hother).2⟩

/-- The shape of a message. -/
structure MessageShaped (decl : IdlDataDecl) (shape : Members) : Prop where
  distinct : (Json.object shape).Distinct
  typed : shape.lookup (ascii "type") = some (.string (ascii "object"))
  undefined : shape.lookup (ascii "$defs") = none
  names : ∃ names : List Bytes, names.Nodup ∧ [] ∉ names ∧
    List.Forall₂ (fun field name => projectedName field = .ok name) decl.fields names

theorem messageShape_eq_ok {decl : IdlDataDecl} {shape : Members}
    (hshape : messageShape library contract decl = .ok shape) : MessageShaped decl shape := by
  obtain ⟨⟨properties, required⟩, hadd, hshape⟩ := except_bind_eq_ok.mp hshape
  obtain ⟨names, hprojected, hdistinct, htexts, hnodup, hnonempty, -⟩ :=
    addFields_eq_ok distinct_nil (fun item hitem => absurd hitem List.not_mem_nil) hadd
  have hkeys : ascii "type" ≠ ascii "properties" ∧ ascii "$defs" ≠ ascii "properties" ∧
      ascii "type" ≠ ascii "required" ∧ ascii "$defs" ≠ ascii "required" ∧
      ascii "$defs" ≠ ascii "type" := by decide
  obtain ⟨htype, hdefs, htype', hdefs', hdefs''⟩ := hkeys
  have hschema := (distinct_text distinct_nil "type" (ascii "object")).insertMember
    (ascii "properties") hdistinct
  have hnames : ∃ names : List Bytes, names.Nodup ∧ [] ∉ names ∧
      List.Forall₂ (fun field name => projectedName field = .ok name) decl.fields names :=
    ⟨names, hnodup, hnonempty, hprojected⟩
  rw [← Except.ok.inj hshape]
  split_ifs with hrequired
  · refine ⟨hschema, ?_, ?_, hnames⟩
    · rw [lookup_insertMember, if_neg htype, text, lookup_insertMember, if_pos rfl]
    · rw [lookup_insertMember, if_neg hdefs, text, lookup_insertMember, if_neg hdefs'']
      rfl
  · refine ⟨hschema.insertMember _ ((itemsDistinct_iff required).mpr htexts), ?_, ?_, hnames⟩
    · rw [lookup_insertMember, if_neg htype', lookup_insertMember, if_neg htype, text,
        lookup_insertMember, if_pos rfl]
    · rw [lookup_insertMember, if_neg hdefs', lookup_insertMember, if_neg hdefs, text,
        lookup_insertMember, if_neg hdefs'']
      rfl

end Shapes

/-! ## Messages -/

/-- What the messages so far add at the root. -/
def rootShape (placed : List (Bytes × Members)) : Members :=
  (placed.lookup (ascii "Workflow")).getD []

/-- What the messages so far add to a definition. -/
def entryShape (placed : List (Bytes × Members)) (name : Bytes) : Option Json :=
  if name = ascii "Workflow" then none else (placed.lookup name).map Json.object

/-- The messages so far are laid over a policy with these definitions. -/
structure Projected (placed : List (Bytes × Members)) (editor definitions result : Members) :
    Prop where
  root : ∀ key, key ≠ ascii "$defs" →
    MemberOverlaid key (editor.lookup key) ((rootShape placed).lookup key) (result.lookup key)
  defs : ∃ after, result.lookup (ascii "$defs") = some (.object after) ∧
    ∀ name, MemberOverlaid name (definitions.lookup name) (entryShape placed name)
      (after.lookup name)
  entries : ∀ message ∈ placed, message.1 ≠ ascii "Workflow" →
    ∃ members, definitions.lookup message.1 = some (.object members)
  nodup : (placed.map Prod.fst).Nodup
  typed : ∀ message ∈ placed, message.2.lookup (ascii "type") = some (.string (ascii "object"))

section Placing

variable {placed : List (Bytes × Members)} {name : Bytes} {shape : Members}

theorem lookup_placed (habsent : placed.lookup name = none) (other : Bytes) :
    (placed ++ [(name, shape)]).lookup other =
      if other = name then some shape else placed.lookup other := by
  rw [List.lookup_append]
  by_cases hother : other = name
  · rw [if_pos hother, hother, habsent, List.lookup_cons_self]
    rfl
  · have hne : (other == name) = false := by simpa using hother
    rw [if_neg hother, List.lookup_cons, hne]
    exact Option.or_none

theorem mem_of_lookup {found : Members} (hlookup : placed.lookup name = some found) :
    (name, found) ∈ placed := by
  obtain ⟨before, after, rfl, -⟩ := List.lookup_eq_some_iff.mp hlookup
  simp

theorem notMem_of_lookup (habsent : placed.lookup name = none) :
    name ∉ placed.map Prod.fst := by
  intro hmem
  obtain ⟨message, hmessage, rfl⟩ := List.mem_map.mp hmem
  have hne := List.lookup_eq_none_iff.mp habsent message hmessage
  simp at hne

theorem rootShape_of_ne (hname : name ≠ ascii "Workflow") (habsent : placed.lookup name = none) :
    rootShape (placed ++ [(name, shape)]) = rootShape placed := by
  rw [rootShape, lookup_placed habsent, if_neg (Ne.symm hname), rootShape]

theorem entryShape_of_ne (habsent : placed.lookup name = none) {other : Bytes}
    (hother : other = ascii "Workflow" ∨ other ≠ name) :
    entryShape (placed ++ [(name, shape)]) other = entryShape placed other := by
  rw [entryShape, entryShape, lookup_placed habsent]
  by_cases hworkflow : other = ascii "Workflow"
  · rw [if_pos hworkflow, if_pos hworkflow]
  · rw [if_neg hworkflow, if_neg hworkflow, if_neg (hother.resolve_left hworkflow)]

theorem nodup_placed (hnodup : (placed.map Prod.fst).Nodup) (habsent : placed.lookup name = none) :
    ((placed ++ [(name, shape)]).map Prod.fst).Nodup := by
  rw [List.map_append, List.nodup_append]
  refine ⟨hnodup, by simp, fun other hother last hlast => ?_⟩
  rintro rfl
  rw [List.map_singleton, List.mem_singleton] at hlast
  rw [hlast] at hother
  exact notMem_of_lookup habsent hother

/-- A destination that a shape was merged into had no type. -/
theorem untyped_of_merge {levels : Nat} {destination result : Members}
    (hdistinct : (Json.object shape).Distinct)
    (htyped : shape.lookup (ascii "type") = some (.string (ascii "object")))
    (hmerge : merge levels destination shape = .ok result) :
    destination.lookup (ascii "type") = none := by
  obtain ⟨hjoined, -⟩ := (merges_merge levels _ _ _ hdistinct hmerge).member (ascii "type")
  rw [htyped] at hjoined
  generalize destination.lookup (ascii "type") = before at hjoined ⊢
  generalize result.lookup (ascii "type") = after at hjoined
  cases hjoined
  rfl

end Placing

section Messages

variable {library : SchemaLibrary} {contract : IdlContract} {placed : List (Bytes × Members)}
  {editor definitions result next : Members}

/-- The shape of Workflow at the root. -/
theorem Projected.atRoot (hprojected : Projected placed editor definitions result)
    {shape : Members} (hshape : (Json.object shape).Distinct)
    (htyped : shape.lookup (ascii "type") = some (.string (ascii "object")))
    (hundefined : shape.lookup (ascii "$defs") = none) {levels : Nat}
    (hmerge : merge levels result shape = .ok next) :
    Projected (placed ++ [(ascii "Workflow", shape)]) editor definitions next := by
  have hoverlaid := merges_merge levels _ _ _ hshape hmerge
  have hneq : ascii "type" ≠ ascii "$defs" := by decide
  have habsent : placed.lookup (ascii "Workflow") = none := by
    by_contra hthere
    obtain ⟨old, hold⟩ := Option.ne_none_iff_exists'.mp hthere
    have holdTyped := hprojected.typed _ (mem_of_lookup hold)
    obtain ⟨hjoined, -⟩ := hprojected.root (ascii "type") hneq
    rw [rootShape, hold, Option.getD_some, holdTyped, untyped_of_merge hshape htyped hmerge]
      at hjoined
    generalize editor.lookup (ascii "type") = before at hjoined
    cases hjoined
  have hroot : rootShape placed = [] := by
    rw [rootShape, habsent]
    rfl
  have hroot' : rootShape (placed ++ [(ascii "Workflow", shape)]) = shape := by
    rw [rootShape, lookup_placed habsent, if_pos rfl]
    rfl
  refine ⟨fun key hkey => ?_, ?_, ?_, ?_, ?_⟩
  · have hbefore := hprojected.root key hkey
    rw [hroot] at hbefore
    rw [hroot', ← hbefore.eq_before]
    exact hoverlaid.member key
  · obtain ⟨after, hafter, hentries⟩ := hprojected.defs
    have hkept := hoverlaid.member (ascii "$defs")
    rw [hundefined] at hkept
    refine ⟨after, hkept.eq_before.trans hafter, fun name => ?_⟩
    have hsame : entryShape (placed ++ [(ascii "Workflow", shape)]) name = entryShape placed name :=
      entryShape_of_ne habsent (Classical.em _)
    rw [hsame]
    exact hentries name
  · refine List.forall_mem_append.mpr ⟨hprojected.entries, fun message hmessage hne => ?_⟩
    rw [List.mem_singleton.mp hmessage] at hne
    exact absurd rfl hne
  · exact nodup_placed hprojected.nodup habsent
  · refine List.forall_mem_append.mpr ⟨hprojected.typed, fun message hmessage => ?_⟩
    rw [List.mem_singleton.mp hmessage]
    exact htyped

/-- The shape of another message at its definition. -/
theorem Projected.atEntry (hprojected : Projected placed editor definitions result) {name : Bytes}
    (hname : name ≠ ascii "Workflow") {shape : Members} (hshape : (Json.object shape).Distinct)
    (htyped : shape.lookup (ascii "type") = some (.string (ascii "object")))
    {entries destination merged : Members}
    (hentries : result.lookup (ascii "$defs") = some (.object entries))
    (hdestination : entries.lookup name = some (.object destination)) {levels : Nat}
    (hmerge : merge levels destination shape = .ok merged) :
    Projected (placed ++ [(name, shape)]) editor definitions
      (insertMember (ascii "$defs") (.object (insertMember name (.object merged) entries)) result) := by
  have hoverlaid := merges_merge levels _ _ _ hshape hmerge
  obtain ⟨after, hafter, hmembers⟩ := hprojected.defs
  obtain rfl : entries = after := Json.object.inj (Option.some.inj (hentries.symm.trans hafter))
  have hmember := hmembers name
  rw [entryShape, if_neg hname, hdestination] at hmember
  have habsent : placed.lookup name = none := by
    by_contra hthere
    obtain ⟨old, hold⟩ := Option.ne_none_iff_exists'.mp hthere
    have holdTyped := hprojected.typed _ (mem_of_lookup hold)
    rw [hold] at hmember
    have htype : (findPath (some (.object old)) ([] ++ [ascii "type"])).isSome = true := by
      show (old.lookup (ascii "type")).isSome = true
      rw [holdTyped]
      rfl
    have hpresent := hmember.2.present htype
    have hnone : findPath (some (.object destination)) ([] ++ [ascii "type"]) = none :=
      untyped_of_merge hshape htyped hmerge
    rw [hnone] at hpresent
    cases hpresent
  rw [habsent] at hmember
  have hbefore : definitions.lookup name = some (.object destination) := hmember.eq_before.symm
  refine ⟨fun key hkey => ?_, ?_, ?_, ?_, ?_⟩
  · rw [lookup_insertMember, if_neg hkey, rootShape_of_ne hname habsent]
    exact hprojected.root key hkey
  · refine ⟨insertMember name (.object merged) entries, ?_, fun other => ?_⟩
    · rw [lookup_insertMember, if_pos rfl]
    · rw [lookup_insertMember]
      by_cases hother : other = name
      · subst hother
        have hthis : entryShape (placed ++ [(other, shape)]) other = some (.object shape) := by
          rw [entryShape, if_neg hname, lookup_placed habsent, if_pos rfl]
          rfl
        rw [if_pos rfl, hthis, hbefore]
        exact .nested other hoverlaid
      · rw [if_neg hother, entryShape_of_ne habsent (.inr hother)]
        exact hmembers other
  · refine List.forall_mem_append.mpr ⟨hprojected.entries, fun message hmessage _ => ?_⟩
    rw [List.mem_singleton.mp hmessage]
    exact ⟨destination, hbefore⟩
  · exact nodup_placed hprojected.nodup habsent
  · refine List.forall_mem_append.mpr ⟨hprojected.typed, fun message hmessage => ?_⟩
    rw [List.mem_singleton.mp hmessage]
    exact htyped

/-- One declaration adds its shape. -/
theorem projectDecl_eq_ok (hprojected : Projected placed editor definitions result)
    {decl : IdlDataDecl} (hdecl : projectDecl library contract result decl = .ok next) :
    ∃ shape, messageShape library contract decl = .ok shape ∧
      Projected (placed ++ [(decl.name, shape)]) editor definitions next := by
  rw [projectDecl] at hdecl
  split at hdecl
  · exact absurd hdecl (fail_ne_ok _ _ _)
  obtain ⟨shape, hshape, hdecl⟩ := except_bind_eq_ok.mp hdecl
  obtain ⟨hdistinct, htyped, hundefined, -⟩ := messageShape_eq_ok hshape
  refine ⟨shape, hshape, ?_⟩
  split at hdecl
  · rename_i hworkflow
    rw [hworkflow]
    exact hprojected.atRoot hdistinct htyped hundefined hdecl
  rename_i hname
  split at hdecl
  · rename_i entries hentries
    split at hdecl
    · rename_i destination hdestination
      obtain ⟨merged, hmerge, hnext⟩ := except_bind_eq_ok.mp hdecl
      obtain rfl := Except.ok.inj hnext
      exact hprojected.atEntry hname hdistinct htyped hentries hdestination hmerge
    · exact absurd hdecl (fail_ne_ok _ _ _)
  · exact absurd hdecl (fail_ne_ok _ _ _)

/-- The name and the shape of a message. -/
def ShapeOf (library : SchemaLibrary) (contract : IdlContract) (decl : IdlDataDecl)
    (message : Bytes × Members) : Prop :=
  message.1 = decl.name ∧ messageShape library contract decl = .ok message.2

/-- The declarations one after the other. -/
theorem projectDecls_eq_ok {decls : List IdlDataDecl}
    (hprojected : Projected placed editor definitions result)
    (hdecls : decls.foldlM (projectDecl library contract) result = .ok next) :
    ∃ shapes, List.Forall₂ (ShapeOf library contract) decls shapes ∧
      Projected (placed ++ shapes) editor definitions next := by
  induction decls generalizing placed result with
  | nil =>
      obtain rfl := Except.ok.inj hdecls
      refine ⟨[], .nil, ?_⟩
      rwa [List.append_nil]
  | cons decl rest ih =>
      rw [List.foldlM_cons] at hdecls
      obtain ⟨between, hdecl, hrest⟩ := except_bind_eq_ok.mp hdecls
      obtain ⟨shape, hshape, hbetween⟩ := projectDecl_eq_ok hprojected hdecl
      obtain ⟨shapes, hshapes, hlast⟩ := ih hbetween hrest
      refine ⟨(decl.name, shape) :: shapes, .cons ⟨rfl, hshape⟩ hshapes, ?_⟩
      rwa [List.append_assoc] at hlast

end Messages

/-! ## One overlay -/

/-- The shapes of all messages as one document: that of Workflow at the root, and the others at
their definitions. -/
def overlay (shapes : List (Bytes × Members)) : Members :=
  rootShape shapes ++ [(ascii "$defs", .object
    ((shapes.filter fun message => message.1 ≠ ascii "Workflow").map fun message =>
      (message.1, .object message.2)))]

/-- Where the shape of a message goes. -/
def destination (name : Bytes) : List Bytes :=
  if name = ascii "Workflow" then [] else [ascii "$defs", name]

theorem lookup_entries (shapes : List (Bytes × Members)) (name : Bytes) :
    ((shapes.filter fun message => message.1 ≠ ascii "Workflow").map fun message =>
      (message.1, Json.object message.2)).lookup name = entryShape shapes name := by
  induction shapes with
  | nil =>
      rw [entryShape]
      split
      · rfl
      · rfl
  | cons message rest ih =>
      obtain ⟨other, shape⟩ := message
      by_cases hother : other = ascii "Workflow"
      · subst hother
        rw [List.filter_cons_of_neg (by simp), ih, entryShape, entryShape]
        split
        · rfl
        · rename_i hname
          rw [List.lookup_cons, beq_false_of_ne hname]
      · rw [List.filter_cons_of_pos (by simpa using hother), List.map_cons, List.lookup_cons, ih,
          entryShape, entryShape, List.lookup_cons]
        dsimp only
        cases hsame : name == other with
        | true =>
            have hname : name ≠ ascii "Workflow" := by
              rw [beq_iff_eq.mp hsame]
              exact hother
            rw [if_neg hname, if_neg hname]
            rfl
        | false => rfl

theorem lookup_overlay_defs {shapes : List (Bytes × Members)}
    (hundefined : (rootShape shapes).lookup (ascii "$defs") = none) :
    (overlay shapes).lookup (ascii "$defs") = some (.object
      ((shapes.filter fun message => message.1 ≠ ascii "Workflow").map fun message =>
        (message.1, .object message.2))) := by
  rw [overlay, List.lookup_append, hundefined, List.lookup_cons_self]
  rfl

theorem lookup_overlay_root {shapes : List (Bytes × Members)} {key : Bytes}
    (hkey : key ≠ ascii "$defs") : (overlay shapes).lookup key = (rootShape shapes).lookup key := by
  have hne : (key == ascii "$defs") = false := by simpa using hkey
  rw [overlay, List.lookup_append, List.lookup_cons, hne]
  exact Option.or_none

/-- The policy with the overlay of all messages. -/
theorem Projected.overlaid {shapes : List (Bytes × Members)} {editor definitions result : Members}
    (hprojected : Projected shapes editor definitions result)
    (heditor : editor.lookup (ascii "$defs") = some (.object definitions))
    (hundefined : (rootShape shapes).lookup (ascii "$defs") = none) :
    Overlaid (some (.object editor)) (some (.object (overlay shapes))) (some (.object result)) := by
  apply overlaid_members
  intro key
  by_cases hkey : key = ascii "$defs"
  · subst hkey
    obtain ⟨after, hafter, hentries⟩ := hprojected.defs
    rw [heditor, hafter, lookup_overlay_defs hundefined]
    apply MemberOverlaid.nested
    apply overlaid_members
    intro name
    rw [lookup_entries]
    exact hentries name
  · rw [lookup_overlay_root hkey]
    exact hprojected.root key hkey

end Praktor.Schema
