/-
# The policy of the editor is never overridden

The shapes of all messages are one overlay, in which each stands at its destination.  A call that
succeeds leaves the policy with this overlay.  A call that meets a conflict fails, without an
output, and no call changes the policy it was given.

The names that the policy itself requires are not compared with each other: a policy may require
a name twice, and then the result does too.
-/

import Praktor.Schema.ProjectionSafety
import Mathlib.Data.List.Forall2

namespace Praktor.Schema

open Praktor.Data Praktor.Data.Json Praktor.Math

/-! ## Destinations -/

section Destinations

variable {shapes : List (Bytes × Members)} {name : Bytes} {shape : Members}

theorem lookup_of_nodup (hnodup : (shapes.map Prod.fst).Nodup) (hmem : (name, shape) ∈ shapes) :
    shapes.lookup name = some shape := by
  obtain ⟨before, after, rfl⟩ := List.append_of_mem hmem
  refine List.lookup_eq_some_iff.mpr ⟨before, after, rfl, fun message hmessage => ?_⟩
  rw [List.map_append, List.nodup_append] at hnodup
  obtain ⟨-, -, hapart⟩ := hnodup
  have hne : message.1 ≠ name :=
    hapart _ (List.mem_map_of_mem hmessage) _ (List.mem_map_of_mem (List.mem_cons_self))
  simpa using Ne.symm hne

/-- The overlay has the shape of each message at its destination. -/
theorem findPath_overlay (hnodup : (shapes.map Prod.fst).Nodup) (hmem : (name, shape) ∈ shapes)
    (hundefined : shape.lookup (ascii "$defs") = none)
    (hroot : (rootShape shapes).lookup (ascii "$defs") = none) {path : List Bytes} {key : Bytes}
    {value : Json} (hvalue : findPath (some (.object shape)) (path ++ [key]) = some value) :
    findPath (some (.object (overlay shapes))) (destination name ++ path ++ [key]) = some value := by
  have hlookup := lookup_of_nodup hnodup hmem
  rw [destination]
  split
  · rename_i hname
    subst hname
    have hshape : rootShape shapes = shape := by
      rw [rootShape, hlookup]
      rfl
    have hsame : ∀ first rest, path ++ [key] = first :: rest →
        findPath (some (.object (overlay shapes))) (first :: rest) = some value := by
      intro first rest hpath
      rw [hpath, findPath_cons, Option.bind_some, objectGet] at hvalue
      rw [findPath_cons, Option.bind_some, objectGet]
      by_cases hfirst : first = ascii "$defs"
      · rw [hfirst, hundefined, findPath_none] at hvalue
        cases hvalue
      · rwa [lookup_overlay_root hfirst, hshape]
    cases path with
    | nil => exact hsame key [] rfl
    | cons first rest => exact hsame first (rest ++ [key]) rfl
  · rename_i hname
    rw [List.append_assoc]
    show findPath ((overlay shapes).lookup (ascii "$defs")) (name :: (path ++ [key])) = some value
    rw [lookup_overlay_defs hroot, findPath_cons, Option.bind_some, objectGet, lookup_entries,
      entryShape, if_neg hname, hlookup]
    exact hvalue

end Destinations

/-! ## A call that succeeds -/

/-- The result is the policy with the shapes of the messages. -/
structure PolicyKept (library : SchemaLibrary) (contract : IdlContract)
    (editor result : Members) (shapes : List (Bytes × Members)) : Prop where
  /-- There is one shape for each message of the contract. -/
  messages : List.Forall₂ (ShapeOf library contract) contract.data shapes
  overlaid : Overlaid (some (.object editor)) (some (.object (overlay shapes)))
    (some (.object result))
  placed : ∀ message ∈ shapes, ∀ path key value,
    findPath (some (.object message.2)) (path ++ [key]) = some value →
      findPath (some (.object (overlay shapes))) (destination message.1 ++ path ++ [key]) =
        some value
  nodup : (shapes.map Prod.fst).Nodup
  /-- Every message has an entry in the policy. -/
  entries : ∀ message ∈ shapes, ∃ members,
    findPath (some (.object editor)) (destination message.1) = some (.object members)

theorem projected_start (editor definitions : Members)
    (hdefs : editor.lookup (ascii "$defs") = some (.object definitions)) :
    Projected [] editor definitions editor where
  root := fun key _ => .kept key _
  defs := by
    refine ⟨definitions, hdefs, fun name => ?_⟩
    have hnone : entryShape [] name = none := by
      rw [entryShape]
      split
      · rfl
      · rfl
    rw [hnone]
    exact .kept name _
  entries := fun message hmessage => absurd hmessage List.not_mem_nil
  nodup := List.nodup_nil
  typed := fun message hmessage => absurd hmessage List.not_mem_nil

section Calls

variable {library : SchemaLibrary} {contract : IdlContract}

section Shapes

variable {shapes : List (Bytes × Members)}
  (hmessages : List.Forall₂ (ShapeOf library contract) contract.data shapes)

include hmessages

theorem decl_of_shape {message : Bytes × Members} (hmem : message ∈ shapes) :
    ∃ decl, ShapeOf library contract decl message := by
  obtain ⟨place, hplace⟩ := List.mem_iff_getElem?.mp hmem
  obtain ⟨decl, -, hshape⟩ := forall₂_getElem? hmessages.flip hplace
  exact ⟨decl, hshape⟩

theorem shape_of_decl {decl : IdlDataDecl} (hdecl : decl ∈ contract.data) :
    ∃ message ∈ shapes, ShapeOf library contract decl message := by
  obtain ⟨place, hplace⟩ := List.mem_iff_getElem?.mp hdecl
  obtain ⟨message, hmessage, hshape⟩ := forall₂_getElem? hmessages hplace
  exact ⟨message, List.mem_of_getElem? hmessage, hshape⟩

end Shapes

theorem projectContract_eq_ok {editor definitions result : Members}
    (hdefs : editor.lookup (ascii "$defs") = some (.object definitions))
    (hproject : projectContract library contract editor = .ok result) :
    ∃ shapes, PolicyKept library contract editor result shapes := by
  rw [projectContract] at hproject
  split_ifs at hproject
  · exact absurd hproject (fail_ne_ok _ _ _)
  · exact absurd hproject (fail_ne_ok _ _ _)
  obtain ⟨shapes, hmessages, hprojected⟩ :=
    projectDecls_eq_ok (projected_start editor definitions hdefs) hproject
  rw [List.nil_append] at hprojected
  have hundefined : ∀ message ∈ shapes, message.2.lookup (ascii "$defs") = none := by
    intro message hmem
    obtain ⟨decl, -, hshape⟩ := decl_of_shape hmessages hmem
    exact (messageShape_eq_ok hshape).undefined
  have hroot : (rootShape shapes).lookup (ascii "$defs") = none := by
    rw [rootShape]
    cases hworkflow : shapes.lookup (ascii "Workflow") with
    | none => rfl
    | some shape => exact hundefined _ (mem_of_lookup hworkflow)
  refine ⟨shapes, hmessages, hprojected.overlaid hdefs hroot, ?_, hprojected.nodup, ?_⟩
  · exact fun message hmem path key value hvalue =>
      findPath_overlay hprojected.nodup hmem (hundefined message hmem) hroot hvalue
  · intro message hmem
    rw [destination]
    split
    · exact ⟨editor, rfl⟩
    · rename_i hname
      obtain ⟨members, hmembers⟩ := hprojected.entries message hmem hname
      refine ⟨members, ?_⟩
      show findPath (editor.lookup (ascii "$defs")) [message.1] = some (.object members)
      rw [hdefs]
      exact hmembers

/-! ## Conflicts -/

/-- What the policy has at the destination of a message. -/
def policyAt (editor : Members) (name : Bytes) : Option Json :=
  findPath (some (.object editor)) (destination name)

/-- An object. -/
def IsObject (value : Json) : Prop := ∃ members, value = .object members

/-- An array under the key that lists required names. -/
def IsRequired (key : Bytes) (value : Json) : Prop :=
  key = ascii "required" ∧ ∃ items, value = .array items

/-- What keeps the shape of a message from being laid over the policy. -/
inductive Conflict (library : SchemaLibrary) (contract : IdlContract) (editor : Members)
    (decl : IdlDataDecl) : Prop
  /-- The names of the fields are not distinct, or one is empty. -/
  | fields (hfields : ∀ names, List.Forall₂ (fun field name => projectedName field = .ok name)
      decl.fields names → ¬ names.Nodup ∨ [] ∈ names)
  /-- The policy has no entry for the message. -/
  | entry (hentry : ∀ value, policyAt editor decl.name = some value → ¬ IsObject value)
  /-- Both have a keyword that cannot be joined. -/
  | keyword (shape : Members) (hshape : messageShape library contract decl = .ok shape)
      (path : List Bytes) (key : Bytes) (before value : Json)
      (hbefore : findPath (policyAt editor decl.name) (path ++ [key]) = some before)
      (hvalue : findPath (some (.object shape)) (path ++ [key]) = some value)
      (hobjects : ¬ (IsObject before ∧ IsObject value))
      (hrequired : ¬ (IsRequired key before ∧ IsRequired key value))
  /-- A required name is no text, or it is there already. -/
  | required (shape : Members) (hshape : messageShape library contract decl = .ok shape)
      (path : List Bytes) (first names : List Json)
      (hbefore : findPath (policyAt editor decl.name) (path ++ [ascii "required"]) =
        some (.array first))
      (hvalue : findPath (some (.object shape)) (path ++ [ascii "required"]) =
        some (.array names))
      (hextends : ¬ Extends first names)

/-- A policy with the shapes of the messages had no conflict. -/
theorem PolicyKept.no_conflict {editor result : Members} {shapes : List (Bytes × Members)}
    (hkept : PolicyKept library contract editor result shapes) {decl : IdlDataDecl}
    (hdecl : decl ∈ contract.data) : ¬ Conflict library contract editor decl := by
  obtain ⟨⟨name, shape⟩, hmem, rfl, hshape⟩ := shape_of_decl hkept.messages hdecl
  -- What the policy and the shape have at a path was joined.
  have hjoined : ∀ path key value,
      findPath (some (.object shape)) (path ++ [key]) = some value →
      ∃ after, Joined key (findPath (policyAt editor decl.name) (path ++ [key])) (some value)
        after := by
    intro path key value hvalue
    have hplaced := hkept.placed _ hmem path key value hvalue
    have hthere := hkept.overlaid (destination decl.name ++ path) key
    rw [hplaced, List.append_assoc, findPath_append] at hthere
    exact ⟨_, hthere⟩
  intro hconflict
  cases hconflict with
  | fields hfields =>
      obtain ⟨names, hnodup, hnonempty, hprojected⟩ := (messageShape_eq_ok hshape).names
      rcases hfields names hprojected with hdouble | hempty
      · exact hdouble hnodup
      · exact hnonempty hempty
  | entry hentry =>
      obtain ⟨members, hmembers⟩ := hkept.entries _ hmem
      exact hentry _ hmembers ⟨members, rfl⟩
  | keyword other hother path key before value hbefore hvalue hobjects hrequired =>
      obtain rfl := Except.ok.inj (hshape.symm.trans hother)
      obtain ⟨after, hthere⟩ := hjoined path key value hvalue
      rw [hbefore] at hthere
      cases hthere with
      | required first names hkey _ => exact hrequired ⟨⟨hkey, first, rfl⟩, hkey, names, rfl⟩
      | nested before overlay after => exact hobjects ⟨⟨before, rfl⟩, overlay, rfl⟩
  | required other hother path first names hbefore hvalue hextends =>
      obtain rfl := Except.ok.inj (hshape.symm.trans hother)
      obtain ⟨after, hthere⟩ := hjoined path (ascii "required") _ hvalue
      rw [hbefore] at hthere
      cases hthere with
      | required _ _ _ hnames => exact hextends hnames

end Calls

/-! ## Every call -/

theorem SchemaFailure.status_ne_ok (failure : SchemaFailure) : failure.status ≠ .ok := by
  rw [SchemaFailure.status]
  split
  · exact nofun
  · exact nofun

/-- What a call does with the policy it was given. -/
structure NeverOverrides (library : SchemaLibrary) (parsed : ParsedContract) (editor : Json)
    (call : ProjectCall) : Prop where
  unchanged : call.editor = editor
  failed : call.status ≠ .ok → call.out = none
  kept : call.status = .ok → ∃ contract members result shapes, parsed = .ok contract ∧
    editor = .object members ∧ call.out = some (.object result) ∧
    PolicyKept library contract members result shapes
  refused : ∀ contract members, parsed = .ok contract → editor = .object members →
    ∀ decl ∈ contract.data, Conflict library contract members decl →
      call.status ≠ .ok ∧ call.out = none

theorem projectEditor_eq_ok {library : SchemaLibrary} {parsed : ParsedContract}
    {editor result : Json} (hproject : projectEditor library parsed editor = .ok result) :
    ∃ contract members merged shapes, parsed = .ok contract ∧ editor = .object members ∧
      result = .object merged ∧ PolicyKept library contract members merged shapes := by
  unfold projectEditor at hproject
  split at hproject
  · rename_i members
    split at hproject
    · rename_i definitions contract hdefs
      cases hresult : projectContract library contract members with
      | error failure =>
          rw [hresult] at hproject
          exact nomatch hproject
      | ok merged =>
          rw [hresult] at hproject
          obtain rfl := Except.ok.inj hproject
          obtain ⟨shapes, hkept⟩ := projectContract_eq_ok hdefs hresult
          exact ⟨contract, members, merged, shapes, rfl, rfl, rfl, hkept⟩
    · exact nomatch hproject
    · exact absurd hproject (fail_ne_ok _ _ _)
  · exact absurd hproject (fail_ne_ok _ _ _)

/-- `praktor_schema_project` never overrides the policy of the editor. -/
theorem project_neverOverrides (library : SchemaLibrary) (parsed : ParsedContract)
    (editor : Json) :
    NeverOverrides library parsed editor (praktorSchemaProject library parsed editor) := by
  rw [praktorSchemaProject]
  cases hproject : projectEditor library parsed editor with
  | error failure =>
      have hstatus := failure.status_ne_ok
      exact ⟨rfl, fun _ => rfl, fun hok => absurd hok hstatus, fun _ _ _ _ _ _ _ => ⟨hstatus, rfl⟩⟩
  | ok result =>
      obtain ⟨contract, members, merged, shapes, hparsed, heditor, hresult, hkept⟩ :=
        projectEditor_eq_ok hproject
      refine ⟨rfl, fun hfailed => absurd rfl hfailed, fun _ => ?_, ?_⟩
      · rw [hresult]
        exact ⟨contract, members, merged, shapes, hparsed, heditor, rfl, hkept⟩
      · intro other others hother hothers decl hdecl hconflict
        obtain rfl := Except.ok.inj (hparsed.symm.trans hother)
        obtain rfl := Json.object.inj (heditor.symm.trans hothers)
        exact absurd hconflict (hkept.no_conflict hdecl)

/-- A policy that requires a name twice is projected, and the result requires it twice. -/
theorem project_repeats_required :
    ¬ ∀ (library : SchemaLibrary) (parsed : ParsedContract) (editor result : Json),
      (praktorSchemaProject library parsed editor).out = some result →
        ∀ path items, findPath (some result) (path ++ [ascii "required"]) = some (.array items) →
          items.Nodup := by
  intro hclaim
  let library : SchemaLibrary := ⟨fun _ _ => some .bool, fun _ => none, nofun⟩
  let workflow : IdlDataDecl := ⟨ascii "Workflow", true, 0, [⟨ascii "a", ascii "bool", none, false,
    false, false, [], none, []⟩]⟩
  let twice : List Json := [.string (ascii "x"), .string (ascii "x")]
  let editor : Json := .object [(ascii "required", .array twice), (ascii "$defs", .object [])]
  have hnames := hclaim library (.ok ⟨0, 0, 0, [workflow]⟩) editor _ rfl []
    (twice ++ [.string (ascii "a")]) rfl
  simp [twice] at hnames

end Praktor.Schema
