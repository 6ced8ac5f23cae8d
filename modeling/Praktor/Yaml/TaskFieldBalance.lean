/-
# The byte account of task fields

At every state on the way the retained bytes are those of the strings that are held somewhere, and
each string that was ever retained is either held once or was released once.  A step that only
moves strings changes neither; a string is charged when it is retained and credited when it is
released.  The maps are right at every state as well: their keys are distinct and stand in the
order of their first occurrences, each with its last value.
-/

import Mathlib.Algebra.BigOperators.Group.List.Basic
import Mathlib.Data.List.Nodup
import Praktor.Yaml.TaskFieldMemory

namespace Praktor.Yaml

open Praktor.Data Praktor.Math Praktor.Math.Coursed

/-! ## What is claimed of a state -/

/-- The bytes that strings take, with their terminators. -/
def weight (texts : List Tstr) : Nat := (texts.map fun text => text.text.length + 1).sum

/-- The texts that `tf_list` reads from a node. -/
def ListReads (document : YamlDocument) (node : YamlNode) (texts : List CString) : Prop :=
  if document.isSeq node then
    (document.children node).map (fun item => document.fieldDecode item false) = texts.map .ok
  else ∃ text, document.fieldDecode node false = .ok text ∧
    texts = if text.length = 0 then [] else [text]

/-- The contents of an entry are those of the child. -/
def ContentsRead (document : YamlDocument) (child : YamlNode) (contents : EntryContents) :
    MapField → Prop
  | .strings => ∃ text, document.fieldDecode child false = .ok text ∧ contents = ⟨some text, []⟩
  | .matrix => ∃ texts, ListReads document child texts ∧ texts ≠ [] ∧ contents = ⟨none, texts⟩

/-- What holds of a map at every state. -/
structure OwnedMap.Right (document : YamlDocument) (field : MapField) (map : OwnedMap) : Prop where
  /-- The keys stand in the order of their first occurrences. -/
  keys : map.entries.map (fun entry => entry.key.text) = (map.stored.map Occurrence.key).eraseDups
  nodup : (map.entries.map fun entry => entry.key.text).Nodup
  /-- Each entry has the value of the last occurrence of its key. -/
  last : ∀ entry ∈ map.entries, ∃ before child after,
    map.stored = before ++ ⟨child, entry.key.text, entry.contents⟩ :: after ∧
      ∀ occurrence ∈ after, occurrence.key ≠ entry.key.text
  /-- Each row of the index points to the entry whose key it borrows. -/
  index : ∀ row ∈ map.index, ∃ entry, map.entries[row.2]? = some entry ∧ entry.key = row.1
  /-- The occurrences are the children of the mappings, in their order. -/
  sources : map.stored.map Occurrence.child <+: map.sources.flatMap document.children
  read : ∀ occurrence ∈ map.stored, document.fieldDecode occurrence.child true = .ok occurrence.key ∧
    ContentsRead document occurrence.child occurrence.contents field

/-- What holds at every state. -/
structure Balanced (document : YamlDocument) (fields : FieldsMemory) : Prop where
  /-- The retained bytes are those of the strings that are held. -/
  bytes : fields.retainedBytes = weight fields.owned
  bytes_le : fields.retainedBytes ≤ taskMaxBytes
  /-- Each string is held once or was released once. -/
  serials : ((fields.owned ++ fields.released).map Tstr.serial).Perm (List.range fields.decoded)
  maps : ∀ field, (fields.maps field).Right document field

/-! ## Counting what is held -/

section Counting

variable {ι β : Type*} [DecidableEq ι] [DecidableEq β]

theorem count_flatMap_update {all : List ι} (hnodup : all.Nodup) {place : ι} (hplace : place ∈ all)
    (lists : ι → List β) (items : List β) (item : β) :
    (all.flatMap (Function.update lists place items)).count item + (lists place).count item =
      (all.flatMap lists).count item + items.count item := by
  induction all with
  | nil => simp at hplace
  | cons first rest ih =>
      obtain ⟨hfirst, hrest⟩ := List.nodup_cons.mp hnodup
      rw [List.flatMap_cons, List.flatMap_cons, List.count_append, List.count_append]
      by_cases hsame : first = place
      · subst hsame
        have hothers : rest.flatMap (Function.update lists first items) = rest.flatMap lists := by
          apply List.flatMap_congr
          intro other hother
          rw [Function.update_of_ne]
          rintro rfl
          exact hfirst hother
        rw [hothers, Function.update_self]
        omega
      · have hin : place ∈ rest := (List.mem_cons.mp hplace).resolve_left (Ne.symm hsame)
        have hcount := ih hrest hin
        rw [Function.update_of_ne hsame]
        omega

theorem count_flatMap_modify {α : Type*} (texts : α → List β) (change : α → α) {entries : List α}
    {place : Nat} {entry : α} (hentry : entries[place]? = some entry) (item : β) :
    ((entries.modify place change).flatMap texts).count item + (texts entry).count item =
      (entries.flatMap texts).count item + (texts (change entry)).count item := by
  induction entries generalizing place with
  | nil => simp at hentry
  | cons first rest ih =>
      cases place with
      | zero =>
          rw [List.getElem?_cons_zero, Option.some.injEq] at hentry
          subst hentry
          simp only [List.modify_zero_cons, List.flatMap_cons, List.count_append]
          omega
      | succ place =>
          have hcount := ih hentry
          simp only [List.modify_succ_cons, List.flatMap_cons, List.count_append]
          omega

end Counting

theorem mem_textFields (field : TextField) : field ∈ TextField.all := by cases field <;> decide

theorem mem_mapFields (field : MapField) : field ∈ MapField.all := by cases field <;> decide

theorem weight_perm {first second : List Tstr} (hperm : first.Perm second) :
    weight first = weight second :=
  (hperm.map _).sum_eq

theorem weight_cons (text : Tstr) (rest : List Tstr) :
    weight (text :: rest) = text.text.length + 1 + weight rest := rfl

namespace FieldsMemory

variable {fields : FieldsMemory}

section Owned

/-- The strings of the maps after one of them has changed. -/
theorem count_texts_withMap (maps : MapField → OwnedMap) (field : MapField) (map : OwnedMap)
    (item : Tstr) :
    (MapField.all.flatMap fun other => (Function.update maps field map other).texts).count item +
        (maps field).texts.count item =
      (MapField.all.flatMap fun other => (maps other).texts).count item + map.texts.count item := by
  have hupdate : (fun other => (Function.update maps field map other).texts) =
      Function.update (fun other => (maps other).texts) field map.texts := by
    funext other
    by_cases hsame : other = field
    · subst hsame
      rw [Function.update_self, Function.update_self]
    · rw [Function.update_of_ne hsame, Function.update_of_ne hsame]
  rw [hupdate]
  exact count_flatMap_update (by decide) (mem_mapFields field) _ _ item

/-- The strings of the fields after one of them has changed. -/
theorem count_texts_update (texts : TextField → Option Tstr) (field : TextField)
    (text : Option Tstr) (item : Tstr) :
    (TextField.all.flatMap fun other => (Function.update texts field text other).toList).count
          item + (texts field).toList.count item =
      (TextField.all.flatMap fun other => (texts other).toList).count item +
        text.toList.count item := by
  have hupdate : (fun other => (Function.update texts field text other).toList) =
      Function.update (fun other => (texts other).toList) field text.toList := by
    funext other
    by_cases hsame : other = field
    · subst hsame
      rw [Function.update_self, Function.update_self]
    · rw [Function.update_of_ne hsame, Function.update_of_ne hsame]
  rw [hupdate]
  exact count_flatMap_update (by decide) (mem_textFields field) _ _ item

theorem owned_retain (htext : fields.text = none) (text : CString) :
    (fields.retain text).owned.Perm (⟨fields.decoded, text⟩ :: fields.owned) := by
  rw [List.perm_iff_count]
  intro item
  simp only [owned, retain, htext, List.count_append, List.count_cons, Option.toList_some,
    Option.toList_none, List.count_nil]
  omega

theorem owned_discardText : fields.discardText.owned.Perm fields.owned := by
  rw [List.perm_iff_count]
  intro item
  simp only [owned, discardText, List.count_append, Option.toList_none, List.count_nil]
  omega

theorem owned_discardEntry : fields.discardEntry.owned.Perm fields.owned := by
  rw [List.perm_iff_count]
  intro item
  simp only [owned, discardEntry, List.count_append, Option.toList_none, List.flatMap_nil,
    List.count_nil]
  omega

theorem owned_discardField (field : TextField) :
    (fields.discardField field).owned.Perm fields.owned := by
  rw [List.perm_iff_count]
  intro item
  have hcount := count_texts_update fields.texts field none item
  simp only [owned, discardField, List.count_append, Option.toList_none, List.count_nil] at hcount ⊢
  omega

theorem owned_discardAll : fields.discardAll.owned.Perm fields.owned := by
  have hnil {ι : Type} (all : List ι) : all.flatMap (fun _ => ([] : List Tstr)) = [] :=
    List.flatMap_eq_nil_iff.mpr fun _ _ => rfl
  rw [List.perm_iff_count]
  intro item
  simp only [owned, discardAll, OwnedMap.texts, Option.toList_none, List.flatMap_nil, hnil,
    List.count_append, List.count_nil]
  omega

theorem owned_keepKey (hentry : fields.entry = none) : fields.keepKey.owned.Perm fields.owned := by
  rw [List.perm_iff_count]
  intro item
  cases htext : fields.text with
  | none => simp [owned, keepKey, htext, hentry]
  | some key =>
      simp [owned, keepKey, htext, hentry, TaskEntry.texts]

theorem owned_keepValue {entry : TaskEntry} (hentry : fields.entry = some entry)
    (hvalue : entry.value = none) : fields.keepValue.owned.Perm fields.owned := by
  rw [List.perm_iff_count]
  intro item
  simp only [owned, keepValue, hentry, hvalue, TaskEntry.texts, Option.map_some,
    Option.toList_some, List.flatMap_cons, List.flatMap_nil, List.append_nil, Option.toList_none,
    List.nil_append, List.count_append, List.count_cons]
  omega

theorem owned_keepItem_owner (slot : Fin 3) :
    (fields.keepItem (.owner slot)).owned.Perm fields.owned := by
  rw [List.perm_iff_count]
  intro item
  have hcount := count_flatMap_update (List.nodup_finRange 3) (List.mem_finRange slot) fields.lists
    (fields.lists slot ++ fields.text.toList) item
  simp only [owned, keepItem, Option.toList_none, List.nil_append, List.count_append] at hcount ⊢
  omega

theorem owned_keepItem_entry {entry : TaskEntry} (hentry : fields.entry = some entry) :
    (fields.keepItem .entry).owned.Perm fields.owned := by
  rw [List.perm_iff_count]
  intro item
  simp only [owned, keepItem, hentry, TaskEntry.texts, Option.map_some, Option.toList_some,
    List.flatMap_cons, List.flatMap_nil, List.append_nil, Option.toList_none, List.nil_append,
    List.count_append, List.count_cons]
  omega

theorem owned_keepField {field : TextField} (hfield : fields.texts field = none) :
    (fields.keepField field).owned.Perm fields.owned := by
  rw [List.perm_iff_count]
  intro item
  have hcount := count_texts_update fields.texts field fields.text item
  simp only [owned, keepField, hfield, Option.toList_none, List.nil_append, List.count_append,
    List.count_nil] at hcount ⊢
  omega

theorem owned_pushEntry (field : MapField) (child : YamlNode) :
    (fields.pushEntry field child).owned.Perm fields.owned := by
  rw [pushEntry]
  split
  next => exact List.Perm.refl _
  next candidate hentry =>
    rw [List.perm_iff_count]
    intro item
    have hcount := count_texts_withMap fields.maps field
      ((fields.maps field).push child candidate) item
    simp only [owned, withMap, hentry, OwnedMap.push, OwnedMap.texts, Option.toList_some,
      Option.toList_none, List.flatMap_append, List.flatMap_cons, List.flatMap_nil, List.append_nil,
      List.nil_append, List.count_append] at hcount ⊢
    omega

theorem owned_replaceEntry {field : MapField} {child : YamlNode} {place : Nat} {entry : TaskEntry}
    (hplace : (fields.maps field).entries[place]? = some entry) :
    (fields.replaceEntry field child place).owned.Perm fields.owned := by
  rw [replaceEntry]
  split
  next => exact List.Perm.refl _
  next candidate hentry =>
    rw [List.perm_iff_count]
    intro item
    have hcount := count_texts_withMap fields.maps field
      ((fields.maps field).replace child place candidate) item
    have hmodify := count_flatMap_modify TaskEntry.texts
      (fun entry => { entry with value := candidate.value, values := candidate.values }) hplace item
    simp only [owned, withMap, hentry, hplace, OwnedMap.replace, OwnedMap.texts, TaskEntry.texts,
      Option.toList_some, Option.toList_none, List.flatMap_cons, List.flatMap_nil, List.append_nil,
      List.nil_append, List.count_append, List.count_cons] at hcount hmodify ⊢
    omega

theorem owned_withMap {field : MapField} {change : OwnedMap → OwnedMap}
    (hsame : (change (fields.maps field)).texts = (fields.maps field).texts) :
    (fields.withMap field change).owned.Perm fields.owned := by
  rw [List.perm_iff_count]
  intro item
  have hcount := count_texts_withMap fields.maps field (change (fields.maps field)) item
  rw [hsame] at hcount
  simp only [owned, withMap, List.count_append] at hcount ⊢
  omega

end Owned

end FieldsMemory

/-! ## Maps -/

section Maps

variable {document : YamlDocument} {field : MapField} {map : OwnedMap} {child : YamlNode}
  {candidate : TaskEntry}

theorem eraseDups_concat {α : Type*} [BEq α] [LawfulBEq α] (items : List α) (item : α) :
    (item ∈ items → (items ++ [item]).eraseDups = items.eraseDups) ∧
      (item ∉ items → (items ++ [item]).eraseDups = items.eraseDups ++ [item]) := by
  rw [List.eraseDups_append]
  constructor <;> intro hitem <;> simp [List.cons_removeAll, hitem, List.eraseDups_cons]

/-- What a candidate says was read from a child that comes next. -/
structure Comes (document : YamlDocument) (field : MapField) (map : OwnedMap) (child : YamlNode)
    (candidate : TaskEntry) : Prop where
  next : map.stored.map Occurrence.child ++ [child] <+: map.sources.flatMap document.children
  key : document.fieldDecode child true = .ok candidate.key.text
  contents : ContentsRead document child candidate.contents field

theorem Comes.sources {fresh : OwnedMap} (hcomes : Comes document field map child candidate)
    (hstored : fresh.stored = map.stored ++ [⟨child, candidate.key.text, candidate.contents⟩])
    (hsources : fresh.sources = map.sources) :
    fresh.stored.map Occurrence.child <+: fresh.sources.flatMap document.children := by
  rw [hstored, hsources, List.map_append]
  exact hcomes.next

theorem Comes.read {fresh : OwnedMap} (hcomes : Comes document field map child candidate)
    (hright : map.Right document field)
    (hstored : fresh.stored = map.stored ++ [⟨child, candidate.key.text, candidate.contents⟩]) :
    ∀ occurrence ∈ fresh.stored,
      document.fieldDecode occurrence.child true = .ok occurrence.key ∧
        ContentsRead document occurrence.child occurrence.contents field := by
  intro occurrence hoccurrence
  rw [hstored, List.mem_append, List.mem_singleton] at hoccurrence
  obtain hold | rfl := hoccurrence
  · exact hright.read occurrence hold
  · exact ⟨hcomes.key, hcomes.contents⟩

theorem OwnedMap.Right.mem_keys (hright : map.Right document field) (key : CString) :
    key ∈ map.stored.map Occurrence.key ↔ ∃ entry ∈ map.entries, entry.key.text = key := by
  rw [← List.mem_eraseDups, ← hright.keys, List.mem_map]

/-- After another occurrence of a key an entry with a different key has its last value still. -/
theorem OwnedMap.Right.last_concat (hright : map.Right document field) {entry : TaskEntry}
    (hentry : entry ∈ map.entries) {occurrence : Occurrence}
    (hother : occurrence.key ≠ entry.key.text) :
    ∃ before child after, map.stored ++ [occurrence] =
      before ++ ⟨child, entry.key.text, entry.contents⟩ :: after ∧
        ∀ later ∈ after, later.key ≠ entry.key.text := by
  obtain ⟨before, child, after, hstored, hlast⟩ := hright.last entry hentry
  refine ⟨before, child, after ++ [occurrence], ?_, ?_⟩
  · rw [hstored, List.append_assoc, List.cons_append]
  · intro later hlater
    rw [List.mem_append, List.mem_singleton] at hlater
    obtain hold | rfl := hlater
    · exact hlast later hold
    · exact hother

/-- An entry with a new key is the last one. -/
theorem OwnedMap.Right.push (hright : map.Right document field)
    (hcomes : Comes document field map child candidate)
    (hnew : ∀ entry ∈ map.entries, entry.key.text ≠ candidate.key.text) :
    (map.push child candidate).Right document field where
  keys := by
    have habsent : candidate.key.text ∉ map.stored.map Occurrence.key := by
      rw [hright.mem_keys]
      rintro ⟨entry, hentry, hkey⟩
      exact hnew entry hentry hkey
    simp only [OwnedMap.push, List.map_append, List.map_cons, List.map_nil, hright.keys,
      (eraseDups_concat _ _).2 habsent]
  nodup := by
    simp only [OwnedMap.push, List.map_append, List.map_cons, List.map_nil]
    rw [List.nodup_append]
    refine ⟨hright.nodup, List.nodup_singleton _, ?_⟩
    intro first hfirst second hsecond hsame
    obtain ⟨entry, hentry, rfl⟩ := List.mem_map.mp hfirst
    rw [List.mem_singleton] at hsecond
    exact hnew entry hentry (hsame.trans hsecond)
  last := by
    intro entry hentry
    simp only [OwnedMap.push, List.mem_append, List.mem_singleton] at hentry
    obtain hold | rfl := hentry
    · exact hright.last_concat hold (Ne.symm (hnew entry hold))
    · exact ⟨map.stored, child, [], rfl, by simp⟩
  index := by
    intro row hrow
    obtain ⟨entry, hentry, hkey⟩ := hright.index row hrow
    obtain ⟨hlt, _⟩ := List.getElem?_eq_some_iff.mp hentry
    refine ⟨entry, ?_, hkey⟩
    rw [OwnedMap.push, List.getElem?_append_left hlt, hentry]
  sources := hcomes.sources rfl rfl
  read := hcomes.read hright rfl

/-- The last entry may get into the index. -/
theorem OwnedMap.Right.putLast (hright : map.Right document field) :
    map.putLast.Right document field where
  keys := hright.keys
  nodup := hright.nodup
  last := hright.last
  index := by
    intro row hrow
    simp only [OwnedMap.putLast, List.mem_append, List.mem_map, Option.mem_toList] at hrow
    obtain hold | ⟨entry, hentry, rfl⟩ := hrow
    · exact hright.index row hold
    · rw [List.getLast?_eq_getElem?] at hentry
      exact ⟨entry, hentry, rfl⟩
  sources := hright.sources
  read := hright.read

/-- An entry may get the value of a candidate with its key. -/
theorem OwnedMap.Right.replace (hright : map.Right document field)
    (hcomes : Comes document field map child candidate) {place : Nat} {entry : TaskEntry}
    (hplace : map.entries[place]? = some entry) (hkey : entry.key.text = candidate.key.text) :
    (map.replace child place candidate).Right document field := by
  have hkeys : (map.replace child place candidate).entries.map (fun entry => entry.key.text) =
      map.entries.map fun entry => entry.key.text := by
    apply List.ext_getElem?
    intro index
    simp only [OwnedMap.replace, List.getElem?_map, List.getElem?_modify]
    cases map.entries[index]? with
    | none => rfl
    | some other => by_cases hsame : place = index <;> simp [hsame]
  refine ⟨?_, ?_, ?_, ?_, hcomes.sources rfl rfl, hcomes.read hright rfl⟩
  · have hpresent : candidate.key.text ∈ map.stored.map Occurrence.key := by
      rw [hright.mem_keys]
      exact ⟨entry, List.mem_of_getElem? hplace, hkey⟩
    rw [hkeys, hright.keys]
    simp only [OwnedMap.replace, List.map_append, List.map_cons, List.map_nil,
      (eraseDups_concat _ _).1 hpresent]
  · rw [hkeys]
    exact hright.nodup
  · intro other hother
    obtain ⟨index, hindex⟩ := List.mem_iff_getElem?.mp hother
    simp only [OwnedMap.replace] at hindex
    by_cases hsame : place = index
    · subst hsame
      rw [List.getElem?_modify_eq, hplace, Option.map_eq_map, Option.map_some, Option.some.injEq] at hindex
      subst hindex
      refine ⟨map.stored, child, [], ?_, by simp⟩
      simp [OwnedMap.replace, hkey, TaskEntry.contents]
    · rw [List.getElem?_modify_ne _ _ hsame] at hindex
      apply hright.last_concat (List.mem_of_getElem? hindex)
      -- the keys are distinct, so another place has another key
      intro hclash
      have hfirst : (map.entries.map fun entry => entry.key.text)[place]? =
          some candidate.key.text := by rw [List.getElem?_map, hplace, Option.map_some, hkey]
      have hsecond : (map.entries.map fun entry => entry.key.text)[index]? =
          some candidate.key.text := by
        rw [List.getElem?_map, hindex, Option.map_some, ← hclash]
      obtain ⟨hlt, _⟩ := List.getElem?_eq_some_iff.mp hfirst
      exact hsame ((List.getElem?_inj hlt hright.nodup).mp (hfirst.trans hsecond.symm))
  · intro row hrow
    obtain ⟨other, hother, hborrowed⟩ := hright.index row hrow
    simp only [OwnedMap.replace, List.getElem?_modify, hother, Option.map_eq_map, Option.map_some]
    split
    · exact ⟨_, rfl, hborrowed⟩
    · exact ⟨other, rfl, hborrowed⟩

/-- What the index answers for a key. -/
theorem OwnedMap.Right.find_cases (hright : map.Right document field)
    (hindexed : ∀ (place : Nat) entry, map.entries[place]? = some entry →
      (entry.key, place) ∈ map.index) (key : CString) :
    (map.find key = none ∧ ∀ entry ∈ map.entries, entry.key.text ≠ key) ∨
      ∃ place entry, map.find key = some place ∧ map.entries[place]? = some entry ∧
        entry.key.text = key := by
  rw [OwnedMap.find]
  cases hfound : map.index.find? fun row => row.1.text = key with
  | none =>
      refine .inl ⟨rfl, fun entry hentry hkey => ?_⟩
      obtain ⟨place, hplace⟩ := List.mem_iff_getElem?.mp hentry
      have hrow := List.find?_eq_none.mp hfound _ (hindexed place entry hplace)
      exact hrow (by simpa using hkey)
  | some row =>
      obtain ⟨entry, hentry, hborrowed⟩ := hright.index row (List.mem_of_find?_eq_some hfound)
      have hkey := List.find?_some hfound
      rw [decide_eq_true_eq, ← hborrowed] at hkey
      exact .inr ⟨row.2, entry, rfl, hentry, hkey⟩

/-- The entries are dropped at the end. -/
theorem OwnedMap.Right.drop (document : YamlDocument) (field : MapField) (map : OwnedMap) :
    OwnedMap.Right document field { map with entries := [], index := [], stored := [] } where
  keys := rfl
  nodup := List.nodup_nil
  last := by simp
  index := by simp
  sources := List.nil_prefix
  read := by simp

end Maps

/-! ## Steps -/

section Steps

variable {document : YamlDocument} {fields next : FieldsMemory}

/-- What only moves strings keeps the account. -/
theorem Balanced.moved (hbalanced : Balanced document fields)
    (howned : next.owned.Perm fields.owned)
    (hsame : next.retainedBytes = fields.retainedBytes ∧ next.released = fields.released ∧
      next.decoded = fields.decoded)
    (hmaps : ∀ field, (next.maps field).Right document field) : Balanced document next := by
  obtain ⟨hbytes, hreleased, hdecoded⟩ := hsame
  refine ⟨?_, hbytes ▸ hbalanced.bytes_le, ?_, hmaps⟩
  · rw [hbytes, hbalanced.bytes, weight_perm howned]
  · rw [hreleased, hdecoded]
    exact ((howned.append_right _).map _).trans hbalanced.serials

/-- A retained string is charged. -/
theorem Balanced.retain (hbalanced : Balanced document fields) (htext : fields.text = none)
    {text : CString} (hfits : text.length < sizeSub taskMaxBytes fields.retainedBytes) :
    Balanced document (fields.retain text) := by
  have hmax : taskMaxBytes ≤ sizeMax := by decide
  have hle := hbalanced.bytes_le
  rw [sizeSub_eq hle hmax] at hfits
  have howned := FieldsMemory.owned_retain htext text
  have hbytes : (fields.retain text).retainedBytes = fields.retainedBytes + (text.length + 1) := by
    rw [FieldsMemory.retain]
    simp only
    rw [sizeAdd_eq (show text.length + 1 ≤ sizeMax by omega), sizeAdd_eq (by omega)]
  refine ⟨?_, by omega, ?_, hbalanced.maps⟩
  · rw [hbytes, weight_perm howned, weight_cons, ← hbalanced.bytes, Nat.add_comm]
  · have hserials := (hbalanced.serials.cons fields.decoded).trans
      (List.perm_append_singleton fields.decoded (List.range fields.decoded)).symm
    rw [← List.range_succ] at hserials
    exact ((howned.append_right fields.released).map Tstr.serial).trans hserials

/-- A released string is credited. -/
theorem Balanced.tfRelease (hbalanced : Balanced document fields) :
    Balanced document fields.tfRelease := by
  rw [FieldsMemory.tfRelease]
  split
  next => exact hbalanced
  next text rest hdisposing =>
    have howned : fields.owned = text :: FieldsMemory.owned { fields with disposing := rest } := by
      rw [FieldsMemory.owned, hdisposing]
      rfl
    have hweight := hbalanced.bytes
    rw [howned, weight_cons] at hweight
    have hmax : taskMaxBytes ≤ sizeMax := by decide
    have hle := hbalanced.bytes_le
    have hbytes : sizeSub fields.retainedBytes (sizeAdd text.text.length 1) =
        weight (FieldsMemory.owned { fields with disposing := rest }) := by
      rw [sizeAdd_eq (by omega), sizeSub_eq (by omega) (by omega)]
      omega
    refine ⟨hbytes, ?_, ?_, hbalanced.maps⟩
    · simp only
      omega
    · refine List.Perm.trans ?_ hbalanced.serials
      rw [howned]
      apply List.Perm.map
      simp only
      rw [← List.append_assoc, List.cons_append]
      exact List.perm_append_singleton _ _

/-- No release takes the account below zero. -/
theorem Balanced.covers (hbalanced : Balanced document fields) {text : Tstr}
    (hheld : text ∈ fields.owned) : text.text.length + 1 ≤ fields.retainedBytes := by
  obtain ⟨before, after, hsplit⟩ := List.append_of_mem hheld
  rw [hbalanced.bytes, hsplit, weight_perm List.perm_middle, weight_cons]
  omega

end Steps

end Praktor.Yaml
