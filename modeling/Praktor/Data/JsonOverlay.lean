/-
# Overlays

An overlay adds to a document: its members are added where the document has none, objects are
joined member by member, and a list of required names is continued.  Whatever else the document
and the overlay both have is a conflict.  `Overlaid` says this of every path at once, and the
rules below put the paths below a member together.
-/

import Praktor.Data.JsonPath

namespace Praktor.Data.Json

/-! ## Members -/

/-- A member is put among others: it takes the place of the key, or the last one. -/
def insertMember (key : Bytes) (value : Json) (members : List (Bytes × Json)) :
    List (Bytes × Json) :=
  if (members.lookup key).isSome then modifyMember key (fun _ => value) members
  else members ++ [(key, value)]

theorem lookup_insertMember (key : Bytes) (value : Json) (members : List (Bytes × Json))
    (other : Bytes) : (insertMember key value members).lookup other =
      if other = key then some value else members.lookup other := by
  rw [insertMember]
  split
  · rename_i hthere
    rw [lookup_modifyMember]
    split
    · obtain ⟨old, hold⟩ := Option.isSome_iff_exists.mp hthere
      rw [hold]
      rfl
    · rfl
  · rename_i habsent
    rw [List.lookup_append, lookup_member]
    by_cases hother : other = key
    · rw [if_pos hother, if_pos hother, hother, Option.not_isSome_iff_eq_none.mp habsent]
      rfl
    · rw [if_neg hother, if_neg hother]
      exact Option.or_none

theorem lookup_eq_none_of_notMem {members : List (Bytes × Json)} {key : Bytes}
    (habsent : key ∉ members.map Prod.fst) : members.lookup key = none := by
  rw [← Option.not_isSome_iff_eq_none]
  intro hthere
  obtain ⟨member, hmember, hkey⟩ := objectGet_isSome.mp hthere
  exact habsent (List.mem_map.mpr ⟨member, hmember, hkey⟩)

theorem map_fst_modifyMember (key : Bytes) (change : Json → Json) (members : List (Bytes × Json)) :
    (modifyMember key change members).map Prod.fst = members.map Prod.fst := by
  induction members with
  | nil => rfl
  | cons member rest ih =>
      obtain ⟨name, value⟩ := member
      rw [modifyMember]
      split
      · rfl
      · rw [List.map_cons, List.map_cons, ih]

/-! ## Distinct keys -/

mutual

/-- No object of a document has a key twice. -/
def Distinct : Json → Prop
  | array items => ItemsDistinct items
  | object members => (members.map Prod.fst).Nodup ∧ MembersDistinct members
  | _ => True

/-- The same of the items of an array. -/
def ItemsDistinct : List Json → Prop
  | [] => True
  | item :: rest => item.Distinct ∧ ItemsDistinct rest

/-- The same of the members of an object. -/
def MembersDistinct : List (Bytes × Json) → Prop
  | [] => True
  | (_, value) :: rest => value.Distinct ∧ MembersDistinct rest

end

theorem membersDistinct_iff (members : List (Bytes × Json)) :
    MembersDistinct members ↔ ∀ member ∈ members, member.2.Distinct := by
  induction members with
  | nil => simp [MembersDistinct]
  | cons member rest ih => simp [MembersDistinct, ih]

theorem itemsDistinct_iff (items : List Json) :
    ItemsDistinct items ↔ ∀ item ∈ items, item.Distinct := by
  induction items with
  | nil => simp [ItemsDistinct]
  | cons item rest ih => simp [ItemsDistinct, ih]

theorem membersDistinct_modifyMember (key : Bytes) {change : Json → Json}
    (hchange : ∀ value : Json, value.Distinct → (change value).Distinct)
    {members : List (Bytes × Json)} (hmembers : MembersDistinct members) :
    MembersDistinct (modifyMember key change members) := by
  induction members with
  | nil => trivial
  | cons member rest ih =>
      obtain ⟨name, value⟩ := member
      rw [modifyMember]
      split
      · exact ⟨hchange value hmembers.1, hmembers.2⟩
      · exact ⟨hmembers.1, ih hmembers.2⟩

/-- An object keeps its keys apart when a member is put into it. -/
theorem Distinct.insertMember {members : List (Bytes × Json)} (hmembers : (object members).Distinct)
    (key : Bytes) {value : Json} (hvalue : value.Distinct) :
    (object (Json.insertMember key value members)).Distinct := by
  obtain ⟨hkeys, hvalues⟩ := hmembers
  rw [Json.insertMember]
  split
  · refine ⟨?_, membersDistinct_modifyMember key (fun _ _ => hvalue) hvalues⟩
    rwa [map_fst_modifyMember]
  · rename_i habsent
    refine ⟨?_, (membersDistinct_iff _).mpr fun member hmember => ?_⟩
    · rw [List.map_append, List.nodup_append]
      refine ⟨hkeys, by simp, fun name hname other hother => ?_⟩
      obtain rfl : other = key := List.mem_singleton.mp hother
      rintro rfl
      obtain ⟨member, hmember, hfst⟩ := List.mem_map.mp hname
      apply habsent
      exact (@objectGet_isSome members _).mpr ⟨member, hmember, hfst⟩
    · rcases List.mem_append.mp hmember with hold | hnew
      · exact (membersDistinct_iff _).mp hvalues member hold
      · rw [List.mem_singleton.mp hnew]
        exact hvalue

/-! ## Overlays -/

/-- Names that continue a list of required names: texts that are not there yet. -/
structure Extends (first names : List Json) : Prop where
  texts : ∀ name ∈ names, ∃ text, name = string text
  nodup : names.Nodup
  fresh : ∀ name ∈ names, name ∉ first
  /-- The names before are looked at when there is one to compare with them. -/
  prior : names ≠ [] → ∀ item ∈ first, ∃ text, item = string text

/-- What stands under a key before an overlay, in it, and after it. -/
inductive Joined (key : Bytes) : Option Json → Option Json → Option Json → Prop
  | kept (before : Option Json) : Joined key before none before
  | added (value : Json) : Joined key none (some value) (some value)
  | required (first names : List Json) (hkey : key = ascii "required")
      (hnames : Extends first names) :
      Joined key (some (array first)) (some (array names)) (some (array (first ++ names)))
  | nested (before overlay after : List (Bytes × Json)) :
      Joined key (some (object before)) (some (object overlay)) (some (object after))

/-- At every path below the root a document has what it had before, joined with the overlay. -/
def Overlaid (before overlay after : Option Json) : Prop :=
  ∀ path key, Joined key (findPath before (path ++ [key])) (findPath overlay (path ++ [key]))
    (findPath after (path ++ [key]))

/-- The same of a member and what is below it. -/
def MemberOverlaid (key : Bytes) (before overlay after : Option Json) : Prop :=
  Joined key before overlay after ∧ Overlaid before overlay after

theorem MemberOverlaid.kept (key : Bytes) (before : Option Json) :
    MemberOverlaid key before none before := by
  refine ⟨.kept before, fun path key => ?_⟩
  rw [findPath_none]
  exact .kept _

/-- Without an overlay nothing changes. -/
theorem MemberOverlaid.eq_before {key : Bytes} {before after : Option Json}
    (hmember : MemberOverlaid key before none after) : after = before := by
  obtain ⟨hjoined, -⟩ := hmember
  cases hjoined
  rfl

theorem MemberOverlaid.added (key : Bytes) (value : Json) :
    MemberOverlaid key none (some value) (some value) := by
  refine ⟨.added value, fun path key => ?_⟩
  rw [findPath_none]
  cases findPath (some value) (path ++ [key]) with
  | none => exact .kept none
  | some found => exact .added found

theorem findPath_array (items : List Json) (path : List Bytes) (key : Bytes) :
    findPath (some (array items)) (path ++ [key]) = none := by
  cases path with
  | nil => rfl
  | cons first rest => exact findPath_none _

theorem MemberOverlaid.required {key : Bytes} {first names : List Json}
    (hkey : key = ascii "required") (hnames : Extends first names) :
    MemberOverlaid key (some (array first)) (some (array names)) (some (array (first ++ names))) := by
  refine ⟨.required first names hkey hnames, fun path key => ?_⟩
  rw [findPath_array, findPath_array, findPath_array]
  exact .kept none

section Members

variable {before overlay after : List (Bytes × Json)}

/-- Objects are joined member by member. -/
theorem overlaid_members
    (hmembers : ∀ key, MemberOverlaid key (before.lookup key) (overlay.lookup key)
      (after.lookup key)) :
    Overlaid (some (object before)) (some (object overlay)) (some (object after)) := by
  intro path key
  cases path with
  | nil => exact (hmembers key).1
  | cons first rest => exact (hmembers first).2 rest key

theorem Overlaid.member
    (hoverlaid : Overlaid (some (object before)) (some (object overlay)) (some (object after)))
    (key : Bytes) :
    MemberOverlaid key (before.lookup key) (overlay.lookup key) (after.lookup key) :=
  ⟨hoverlaid [] key, fun path last => hoverlaid (key :: path) last⟩

theorem MemberOverlaid.nested (key : Bytes)
    (hoverlaid : Overlaid (some (object before)) (some (object overlay)) (some (object after))) :
    MemberOverlaid key (some (object before)) (some (object overlay)) (some (object after)) :=
  ⟨.nested before overlay after, hoverlaid⟩

end Members

section Paths

variable {before overlay after : Option Json} {path : List Bytes} {key : Bytes}

/-- A path of the overlay is there. -/
theorem Overlaid.present (hoverlaid : Overlaid before overlay after)
    (hsome : (findPath overlay (path ++ [key])).isSome = true) :
    (findPath after (path ++ [key])).isSome = true := by
  have hjoined := hoverlaid path key
  generalize findPath before (path ++ [key]) = first at hjoined ⊢
  generalize findPath overlay (path ++ [key]) = middle at hjoined hsome ⊢
  generalize findPath after (path ++ [key]) = last at hjoined ⊢
  cases hjoined with
  | kept => cases hsome
  | added => rfl
  | required => rfl
  | nested => rfl

end Paths

end Praktor.Data.Json
