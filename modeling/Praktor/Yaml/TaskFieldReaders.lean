/-
# The readers of task fields keep the account

Each reader starts with no string in its locals, and ends so: it has kept or released what it
decoded, on success and on each of its failures.  In between, the entry of a map that is being
built holds what was decoded for it.  From this the account is right at every state of `create`
and of `destroy`, and `destroy` releases all that is left.
-/

import Praktor.Yaml.TaskFieldBalance

namespace Praktor.Yaml

open Praktor.Data Praktor.Math Praktor.Math.Coursed

/-! ## Where a reader stands -/

/-- What is known of the owner: the fields that no string was decoded for, the mappings that were
read into the maps, and their children that were stored. -/
structure Frame where
  pending : List TextField
  sources : MapField → List YamlNode
  done : MapField → List YamlNode

/-- A child more is stored. -/
def Frame.store (frame : Frame) (field : MapField) (child : YamlNode) : Frame :=
  { frame with done := Function.update frame.done field (frame.done field ++ [child]) }

/-- A mapping more is read. -/
def Frame.source (frame : Frame) (field : MapField) (node : YamlNode) : Frame :=
  { frame with sources := Function.update frame.sources field (frame.sources field ++ [node]) }

/-- What is known of the locals. -/
abbrev Locals := Option Tstr → Option TaskEntry → Prop

/-- What is known of a map: each of its entries is in the index. -/
structure MapAt (frame : Frame) (field : MapField) (map : OwnedMap) : Prop where
  sources : map.sources = frame.sources field
  indexed : ∀ (place : Nat) entry, map.entries[place]? = some entry →
    (entry.key, place) ∈ map.index
  done : map.stored.map Occurrence.child = frame.done field

/-- What a release leaves alone. -/
structure Around (frame : Frame) (locals : Locals) (fields : FieldsMemory) : Prop where
  locals : locals fields.text fields.entry
  pending : ∀ field ∈ frame.pending, fields.texts field = none
  maps : ∀ field, MapAt frame field (fields.maps field)

/-- Where a reader stands when nothing is about to be released. -/
structure At (document : YamlDocument) (frame : Frame) (locals : Locals) (fields : FieldsMemory) :
    Prop where
  balanced : Balanced document fields
  settled : fields.disposing = []
  around : Around frame locals fields

/-- Where a reader has failed: no local holds a string but the entry, perhaps. -/
structure Fallen (document : YamlDocument) (entry : Option TaskEntry → Prop)
    (fields : FieldsMemory) : Prop where
  balanced : Balanced document fields
  settled : fields.disposing = []
  text : fields.text = none
  entry : entry fields.entry

/-- No string is decoded. -/
def Free (entry : Option TaskEntry → Prop) : Locals := fun text other => text = none ∧ entry other

/-- A string is decoded of which this is known. -/
def Holding (told : CString → Prop) (entry : Option TaskEntry → Prop) : Locals :=
  fun text other => (∃ held, text = some held ∧ told held.text) ∧ entry other

/-- No entry is being built. -/
def NoEntry (entry : Option TaskEntry) : Prop := entry = none

/-- There may be an entry. -/
def AnyEntry (_ : Option TaskEntry) : Prop := True

/-- Where the texts of a list stand: in the entry that is being built, when it is the list of it. -/
def ListTarget.Stands (key : Tstr) (texts : List CString) : ListTarget → Option TaskEntry → Prop
  | .owner _, building => building = none
  | .entry, building => ∃ values : List Tstr, building = some ⟨key, none, values⟩ ∧
      values.map Tstr.text = texts

section Standing

variable {document : YamlDocument} {frame : Frame} {locals : Locals} {fields : FieldsMemory}
  {entry : Option TaskEntry → Prop}

theorem Around.tfRelease (haround : Around frame locals fields) :
    Around frame locals fields.tfRelease := by
  rw [FieldsMemory.tfRelease]
  split
  · exact haround
  · exact ⟨haround.locals, haround.pending, haround.maps⟩

/-- The counters and the flags are of no account. -/
theorem At.counted (hat : At document frame locals fields) (attempts expanded : Nat)
    (sequence hasTimeout hasWhen : Bool) :
    At document frame locals { fields with
      attempts := attempts
      expandedStrings := expanded
      sequence := sequence
      hasTimeout := hasTimeout
      hasWhen := hasWhen } where
  balanced := ⟨hat.balanced.bytes, hat.balanced.bytes_le, hat.balanced.serials, hat.balanced.maps⟩
  settled := hat.settled
  around := ⟨hat.around.locals, hat.around.pending, hat.around.maps⟩

theorem At.fallen (hat : At document frame (Free entry) fields) : Fallen document entry fields :=
  ⟨hat.balanced, hat.settled, hat.around.locals.1, hat.around.locals.2⟩

theorem Fallen.mono {other : Option TaskEntry → Prop} (hfallen : Fallen document entry fields)
    (hmono : ∀ found, entry found → other found) : Fallen document other fields :=
  ⟨hfallen.balanced, hfallen.settled, hfallen.text, hmono _ hfallen.entry⟩

/-- The locals may be known otherwise. -/
theorem At.told {other : Locals} (hat : At document frame locals fields)
    (hlocals : other fields.text fields.entry) : At document frame other fields :=
  ⟨hat.balanced, hat.settled, hlocals, hat.around.pending, hat.around.maps⟩

theorem At.mono {other : Locals} (hat : At document frame locals fields)
    (hmono : ∀ text found, locals text found → other text found) :
    At document frame other fields :=
  hat.told (hmono _ _ hat.around.locals)

end Standing

namespace FieldsReader

open FieldsMemory

variable {allocates : Nat → Bool} {document : YamlDocument} {frame : Frame} {locals : Locals}
  {entry : Option TaskEntry → Prop}

/-! ## Single steps -/

/-- One step from one place to another. -/
theorem step_meets {next : Frame} {after : Locals} {change : FieldsMemory → FieldsMemory}
    {failed : FieldsMemory → Prop}
    (hchange : ∀ fields, At document frame locals fields → At document next after (change fields)) :
    Meets (Balanced document) (At document frame locals) (step change : FieldsReader PUnit)
      (fun _ => At document next after) failed :=
  Meets.step _ (fun _ hat => hat.balanced) hchange

theorem allocated_meets {failed : FieldsMemory → Prop} :
    Meets (Balanced document) (At document frame locals) (allocated allocates)
      (fun _ => At document frame locals) failed := by
  refine Meets.current.bind fun fields => ?_
  refine (Meets.step (fun _ => At document frame locals) ?_ ?_).bind fun _ =>
    Meets.pure fun _ hat => hat
  · rintro state ⟨_, hat⟩
    exact hat.balanced
  · rintro state ⟨_, hat⟩
    exact hat.counted _ _ _ _ _

/-- What another function returns is returned, or there is no memory. -/
theorem raise_meets {α : Type} (result : Except Bytes α) :
    Meets (Balanced document) (At document frame (Free entry)) (raise allocates result)
      (fun value fields => result = .ok value ∧ At document frame (Free entry) fields)
      (Fallen document entry) := by
  refine allocated_meets.bind fun granted => Meets.ite (fun _ => ?_) fun _ => ?_
  · cases result with
    | ok value => exact Meets.pure fun _ hat => ⟨rfl, hat⟩
    | error text => exact Meets.throw fun _ hat => hat.fallen
  · exact Meets.throw fun _ hat => hat.fallen

/-- An error changes nothing. -/
theorem tfError_meets {α : Type} (node : YamlNode) (message : Bytes)
    {after : α → FieldsMemory → Prop} :
    Meets (Balanced document) (At document frame (Free entry))
      (tfError allocates document node message) after (Fallen document entry) := by
  refine (raise_meets _).conseq (fun _ hat => hat) ?_ fun _ hfallen => hfallen
  rintro value state ⟨himpossible, _⟩
  cases himpossible

/-- Strings that are given up are released one by one. -/
theorem dispose_meets {before failed : FieldsMemory → Prop} (after : FieldsMemory → Prop)
    {discard : FieldsMemory → FieldsMemory}
    (hbefore : ∀ fields, before fields → Balanced document fields)
    (hdiscard : ∀ fields, before fields → Balanced document (discard fields))
    (hafter : ∀ fields, before fields → after (discard fields))
    (hstable : ∀ fields, after fields → after fields.tfRelease) :
    Meets (Balanced document) before (dispose discard)
      (fun _ fields => Balanced document fields ∧ fields.disposing = [] ∧ after fields) failed := by
  refine (Meets.step (fun _ fields => Balanced document fields ∧ after fields) hbefore
    fun fields hfields => ⟨hdiscard fields hfields, hafter fields hfields⟩).bind fun _ => ?_
  refine Meets.current.bind fun start => ?_
  let done (released : List Tstr) (fields : FieldsMemory) : Prop := Balanced document fields ∧
    fields.disposing = start.disposing.drop released.length ∧ after fields
  have hloop : Meets (Balanced document) (done [])
      (start.disposing.forM fun _ => (step tfRelease : FieldsReader PUnit))
      (fun _ => done start.disposing) failed := by
    refine Meets.forM done fun released text _ => Meets.step _ (fun _ hstate => hstate.1) ?_
    rintro fields ⟨hbalanced, hdisposing, hstate⟩
    refine ⟨hbalanced.tfRelease, ?_, hstable fields hstate⟩
    rw [List.length_append, List.length_singleton, ← List.tail_drop, ← hdisposing,
      FieldsMemory.tfRelease]
    split
    next hnil => rw [hnil, List.tail_nil]
    next hcons => rw [hcons, List.tail_cons]
  refine hloop.conseq ?_ ?_ fun _ hfailed => hfailed
  · rintro fields ⟨rfl, hbalanced, hstate⟩
    exact ⟨hbalanced, rfl, hstate⟩
  · rintro _ fields ⟨hbalanced, hdisposing, hstate⟩
    rw [List.drop_length] at hdisposing
    exact ⟨hbalanced, hdisposing, hstate⟩

/-- Strings that are given up are released, and the rest is as it was. -/
theorem dispose_at {next : Frame} {after : Locals} {discard : FieldsMemory → FieldsMemory}
    {before failed : FieldsMemory → Prop}
    (hbefore : ∀ fields, before fields → Balanced document fields)
    (hdiscard : ∀ fields, before fields →
      Balanced document (discard fields) ∧ Around next after (discard fields)) :
    Meets (Balanced document) before (dispose discard) (fun _ => At document next after) failed :=
  (dispose_meets (Around next after) hbefore (fun fields h => (hdiscard fields h).1)
    (fun fields h => (hdiscard fields h).2) fun _ haround => haround.tfRelease).conseq
      (fun _ h => h) (fun _ _ ⟨hbalanced, hsettled, haround⟩ => ⟨hbalanced, hsettled, haround⟩)
      fun _ h => h

theorem discardText_balanced {fields : FieldsMemory} (hbalanced : Balanced document fields) :
    Balanced document fields.discardText :=
  hbalanced.moved owned_discardText ⟨rfl, rfl, rfl⟩ hbalanced.maps

theorem discardEntry_balanced {fields : FieldsMemory} (hbalanced : Balanced document fields) :
    Balanced document fields.discardEntry :=
  hbalanced.moved owned_discardEntry ⟨rfl, rfl, rfl⟩ hbalanced.maps

/-- The decoded string is given up. -/
theorem disposeText_meets {told : CString → Prop} {failed : FieldsMemory → Prop} :
    Meets (Balanced document) (At document frame (Holding told entry)) (dispose discardText)
      (fun _ => At document frame (Free entry)) failed :=
  dispose_at (fun _ hat => hat.balanced) fun _ hat =>
    ⟨discardText_balanced hat.balanced, ⟨rfl, hat.around.locals.2⟩, hat.around.pending,
      hat.around.maps⟩

/-- The entry is given up. -/
theorem disposeEntry_meets {failed : FieldsMemory → Prop} :
    Meets (Balanced document) (At document frame (Free entry)) (dispose discardEntry)
      (fun _ => At document frame (Free NoEntry)) failed :=
  dispose_at (fun _ hat => hat.balanced) fun _ hat =>
    ⟨discardEntry_balanced hat.balanced, ⟨hat.around.locals.1, rfl⟩, hat.around.pending,
      hat.around.maps⟩

/-- After a failure the entry is given up. -/
theorem disposeFallen_meets {failed : FieldsMemory → Prop} :
    Meets (Balanced document) (Fallen document AnyEntry) (dispose discardEntry)
      (fun _ => Fallen document NoEntry) failed :=
  (dispose_meets (fun fields => fields.text = none ∧ fields.entry = none)
    (fun _ hfallen => hfallen.balanced) (fun _ hfallen => discardEntry_balanced hfallen.balanced)
    (fun _ hfallen => ⟨hfallen.text, rfl⟩) fun fields hlocals => by
      rw [FieldsMemory.tfRelease]
      split <;> exact hlocals).conseq (fun _ h => h)
        (fun _ _ ⟨hbalanced, hsettled, htext, hentry⟩ => ⟨hbalanced, hsettled, htext, hentry⟩)
        fun _ h => h

/-! ## Strings and lists -/

/-- A string is decoded and retained, or nothing is. -/
theorem tfDecode_meets (node : YamlNode) (key : Bool) :
    Meets (Balanced document) (At document frame (Free entry))
      (tfDecode allocates document node key)
      (fun _ => At document frame
        (Holding (fun text => document.fieldDecode node key = .ok text) entry))
      (Fallen document entry) := by
  refine Meets.current.bind fun start => Meets.ite (fun _ => ?_) fun _ => ?_
  · exact (tfError_meets node _).conseq (fun _ h => h.2) (fun _ _ h => h) fun _ h => h
  refine (Meets.step (fun _ => At document frame (Free entry)) (fun _ h => h.2.balanced) ?_).bind
    fun _ => (raise_meets _).bind fun text => Meets.current.bind fun before => ?_
  · rintro fields ⟨_, hat⟩
    exact hat.counted _ _ _ _ _
  refine Meets.ite (fun _ => ?_) fun hfits => ?_
  · exact (tfError_meets node _).conseq (fun _ h => h.2.2) (fun _ _ h => h) fun _ h => h
  · refine Meets.step _ (fun _ h => h.2.2.balanced) ?_
    rintro fields ⟨rfl, hdecoded, hat⟩
    exact ⟨hat.balanced.retain hat.around.locals.1 (Nat.lt_of_not_le hfits), hat.settled,
      ⟨⟨_, rfl, hdecoded⟩, hat.around.locals.2⟩, hat.around.pending, hat.around.maps⟩

theorem keepItem_at {target : ListTarget} {key : Tstr} {texts : List CString}
    {told : CString → Prop} {fields : FieldsMemory}
    (hat : At document frame (Holding told (target.Stands key texts)) fields) :
    At document frame
      (Free fun entry => ∃ text, told text ∧ target.Stands key (texts ++ [text]) entry)
      (fields.keepItem target) := by
  obtain ⟨⟨text, htext, htold⟩, hstands⟩ := hat.around.locals
  cases target with
  | owner slot =>
      exact ⟨hat.balanced.moved (owned_keepItem_owner slot) ⟨rfl, rfl, rfl⟩ hat.balanced.maps,
        hat.settled, ⟨rfl, text.text, htold, hstands⟩, hat.around.pending, hat.around.maps⟩
  | entry =>
      obtain ⟨values, hentry, rfl⟩ := hstands
      refine ⟨hat.balanced.moved (owned_keepItem_entry hentry) ⟨rfl, rfl, rfl⟩ hat.balanced.maps,
        hat.settled, ⟨rfl, text.text, htold, values ++ [text], ?_, ?_⟩, hat.around.pending,
        hat.around.maps⟩
      · simp only [keepItem, hentry, htext, Option.map_some, Option.toList_some]
      · rw [List.map_append, List.map_singleton]

variable (frame)

/-- The texts of a list after a string was read for it, which is skipped if it is empty and such
strings are. -/
def appended (skipEmpty : Bool) (texts : List CString) (text : CString) : List CString :=
  if skipEmpty = true ∧ text.length = 0 then texts else texts ++ [text]

/-- A string is appended to a list, unless it is skipped. -/
theorem tfAppend_meets (target : ListTarget) (skipEmpty : Bool) (node : YamlNode) (key : Tstr)
    (texts : List CString) :
    Meets (Balanced document) (At document frame (Free (target.Stands key texts)))
      (tfAppend allocates document target skipEmpty node)
      (fun _ => At document frame (Free fun entry => ∃ text,
        document.fieldDecode node false = .ok text ∧
          target.Stands key (appended skipEmpty texts text) entry))
      (Fallen document (target.Stands key texts)) := by
  refine (tfDecode_meets node false).bind fun _ => Meets.current.bind fun start => ?_
  refine Meets.ite (fun hskip => ?_) fun hkeep => Meets.ite (fun _ => ?_) fun _ => ?_
  · rw [Bool.and_eq_true] at hskip
    refine dispose_at (fun _ h => h.2.balanced) ?_
    rintro fields ⟨rfl, hat⟩
    obtain ⟨⟨text, htext, hdecoded⟩, hstands⟩ := hat.around.locals
    refine ⟨discardText_balanced hat.balanced, ⟨rfl, text.text, hdecoded, ?_⟩, hat.around.pending,
      hat.around.maps⟩
    rw [htext, Option.all_some, decide_eq_true_eq] at hskip
    rw [appended, if_pos hskip]
    exact hstands
  · refine (disposeText_meets.conseq (fun _ h => h.2) (fun _ _ h => h) fun _ h => h).bind fun _ => ?_
    exact tfError_meets node _
  · let told (text : CString) : Prop := document.fieldDecode node false = .ok text ∧
      ¬ (skipEmpty = true ∧ text.length = 0)
    have hallocated : Meets (Balanced document)
        (At document frame (Holding told (target.Stands key texts))) (allocated allocates)
        (fun _ => At document frame (Holding told (target.Stands key texts)))
        (Fallen document (target.Stands key texts)) := allocated_meets
    refine (hallocated.conseq ?_ (fun _ _ h => h) fun _ h => h).bind fun _ =>
      Meets.ite (fun _ => ?_) fun _ => ?_
    · rintro fields ⟨rfl, hat⟩
      obtain ⟨⟨text, htext, hdecoded⟩, hstands⟩ := hat.around.locals
      refine hat.told ⟨⟨text, htext, hdecoded, ?_⟩, hstands⟩
      rw [htext, Option.all_some, Bool.and_eq_true, decide_eq_true_eq] at hkeep
      exact hkeep
    · refine Meets.step _ (fun _ hat => hat.balanced) fun fields hat => (keepItem_at hat).mono ?_
      rintro text other ⟨hfree, held, ⟨hdecoded, hkept⟩, hstands⟩
      refine ⟨hfree, held, hdecoded, ?_⟩
      rw [appended, if_neg hkept]
      exact hstands
    · exact disposeText_meets.bind fun _ => Meets.throw fun _ hat => hat.fallen

/-- A whole list is read. -/
theorem tfList_meets (target : ListTarget) (node : YamlNode) (key : Tstr)
    {fall : Option TaskEntry → Prop} (hfall : ∀ texts entry, target.Stands key texts entry → fall entry) :
    Meets (Balanced document) (At document frame (Free (target.Stands key [])))
      (tfList allocates document target node)
      (fun _ => At document frame (Free fun entry => ∃ texts, ListReads document node texts ∧
        target.Stands key texts entry))
      (Fallen document fall) := by
  refine Meets.ite (fun hseq => ?_) fun hother => Meets.ite (fun _ => ?_) fun _ => ?_
  · let done (items : List YamlNode) : FieldsMemory → Prop := At document frame (Free fun entry =>
      ∃ texts : List CString, items.map (fun item => document.fieldDecode item false) =
        texts.map .ok ∧ target.Stands key texts entry)
    refine (Meets.forM done fun before item _ => ?_).conseq ?_ ?_ fun _ h => h
    · have hround (texts : List CString) : Meets (Balanced document)
          (fun fields => before.map (fun item => document.fieldDecode item false) = texts.map .ok ∧
            At document frame (Free (target.Stands key texts)) fields)
          (tfAppend allocates document target false item) (fun _ => done (before ++ [item]))
          (Fallen document fall) := by
        refine Meets.given fun hbefore => (tfAppend_meets frame target false item key texts).conseq
          (fun _ h => h) ?_ fun _ h => h.mono (hfall texts)
        intro _ fields hat
        refine hat.mono fun _ entry h => ⟨h.1, ?_⟩
        obtain ⟨text, hdecoded, hstands⟩ := h.2
        refine ⟨texts ++ [text], ?_, hstands⟩
        rw [List.map_append, List.map_append, hbefore, List.map_singleton, hdecoded,
          List.map_singleton]
      refine (Meets.exists hround).conseq ?_ (fun _ _ h => h) fun _ h => h
      intro fields hat
      obtain ⟨_, texts, hdecoded, hstands⟩ := hat.around.locals
      exact ⟨texts, hdecoded, hat.told ⟨hat.around.locals.1, hstands⟩⟩
    · exact fun fields hat => hat.mono fun _ _ h => ⟨h.1, [], rfl, h.2⟩
    · intro _ fields hat
      refine hat.mono fun _ entry h => ⟨h.1, ?_⟩
      obtain ⟨texts, hdecoded, hstands⟩ := h.2
      refine ⟨texts, ?_, hstands⟩
      rw [ListReads, if_pos hseq]
      exact hdecoded
  · refine (tfAppend_meets frame target true node key []).conseq (fun _ h => h) ?_ fun _ h =>
      h.mono (hfall [])
    intro _ fields hat
    refine hat.mono fun _ entry h => ⟨h.1, ?_⟩
    obtain ⟨text, hdecoded, hstands⟩ := h.2
    refine ⟨_, ?_, hstands⟩
    rw [ListReads, if_neg hother]
    refine ⟨text, hdecoded, ?_⟩
    simp [appended]
  · exact (tfError_meets node _).conseq (fun _ h => h) (fun _ _ h => h) fun _ h =>
      h.mono (hfall [])

/-! ## Entries -/

variable {frame}

theorem keepKey_at {told : CString → Prop} {fields : FieldsMemory}
    (hat : At document frame (Holding told NoEntry) fields) :
    At document frame (Free fun entry => ∃ key : Tstr, told key.text ∧ entry = some ⟨key, none, []⟩)
      fields.keepKey := by
  obtain ⟨⟨key, htext, htold⟩, hentry⟩ := hat.around.locals
  refine ⟨hat.balanced.moved (owned_keepKey hentry) ⟨rfl, rfl, rfl⟩ hat.balanced.maps, hat.settled,
    ⟨rfl, key, htold, ?_⟩, hat.around.pending, hat.around.maps⟩
  simp only [keepKey, htext, Option.map_some]

theorem keepValue_at {told : CString → Prop} {key : Tstr} {fields : FieldsMemory}
    (hat : At document frame (Holding told (· = some ⟨key, none, []⟩)) fields) :
    At document frame
      (Free fun entry => ∃ value : Tstr, told value.text ∧ entry = some ⟨key, some value, []⟩)
      fields.keepValue := by
  obtain ⟨⟨value, htext, htold⟩, hentry⟩ := hat.around.locals
  refine ⟨hat.balanced.moved (owned_keepValue hentry rfl) ⟨rfl, rfl, rfl⟩ hat.balanced.maps,
    hat.settled, ⟨rfl, value, htold, ?_⟩, hat.around.pending, hat.around.maps⟩
  simp only [keepValue, htext, hentry, Option.map_some]

/-- An entry with this key has the contents of a child. -/
def Built (document : YamlDocument) (child : YamlNode) (field : MapField) (key : Tstr)
    (entry : Option TaskEntry) : Prop :=
  ∃ built, entry = some built ∧ built.key = key ∧
    ContentsRead document child built.contents field

variable (frame)

/-- The value of an entry is read into it. -/
theorem entryValue_meets (child : YamlNode) (field : MapField) (key : Tstr) :
    Meets (Balanced document) (At document frame (Free (· = some ⟨key, none, []⟩)))
      (entryValue allocates document child field)
      (fun _ => At document frame (Free (Built document child field key)))
      (Fallen document AnyEntry) := by
  cases field with
  | strings =>
      refine ((tfDecode_meets child false).conseq (fun _ h => h) (fun _ _ h => h) fun _ h =>
        h.mono fun _ _ => trivial).bind fun _ => ?_
      refine Meets.step _ (fun _ hat => hat.balanced) fun fields hat => (keepValue_at hat).mono ?_
      rintro text entry ⟨hfree, value, hdecoded, rfl⟩
      exact ⟨hfree, _, rfl, rfl, value.text, hdecoded, rfl⟩
  | matrix =>
      refine allocated_meets.bind fun _ => Meets.ite (fun _ => ?_) fun _ =>
        Meets.throw fun _ hat => hat.fallen.mono fun _ _ => trivial
      have hstart {fields : FieldsMemory} (hat : At document frame
          (Free (· = some ⟨key, none, []⟩)) fields) :
          At document frame (Free (ListTarget.entry.Stands key [])) fields :=
        hat.told ⟨hat.around.locals.1, [], hat.around.locals.2, rfl⟩
      refine ((tfList_meets frame .entry child key fun _ _ _ => trivial).conseq
        (fun _ hat => hstart hat) (fun _ _ h => h) fun _ h => h).bind fun _ => ?_
      refine Meets.current.bind fun start => Meets.ite (fun _ => ?_) fun hsome => ?_
      · exact (tfError_meets child _).conseq (fun _ h => h.2) (fun _ _ h => h) fun _ h =>
          h.mono fun _ _ => trivial
      · refine Meets.pure ?_
        rintro fields ⟨rfl, hat⟩
        obtain ⟨hfree, texts, hreads, values, hentry, rfl⟩ := hat.around.locals
        refine hat.told ⟨hfree, _, hentry, rfl, _, hreads, ?_, rfl⟩
        intro hnil
        apply hsome
        rw [FieldsMemory.list, hentry]
        exact List.map_eq_nil_iff.mp hnil

/-! ## Maps -/

/-- What holds of a map that changes and of the others holds of all. -/
theorem forall_update (holds : MapField → OwnedMap → Prop) {maps : MapField → OwnedMap}
    {field : MapField} {map : OwnedMap} (hmap : holds field map)
    (hothers : ∀ other, other ≠ field → holds other (maps other)) :
    ∀ other, holds other (Function.update maps field map other) := by
  intro other
  by_cases hsame : other = field
  · subst hsame
    rw [Function.update_self]
    exact hmap
  · rw [Function.update_of_ne hsame]
    exact hothers other hsame

/-- The flag of a map is of no account. -/
theorem initialize_at {fields : FieldsMemory} (hat : At document frame locals fields)
    (field : MapField) : At document frame locals
      (fields.withMap field fun map => { map with initialized := true }) where
  balanced := by
    refine hat.balanced.moved (owned_withMap rfl) ⟨rfl, rfl, rfl⟩ ?_
    have hright := hat.balanced.maps
    exact forall_update (fun other map => map.Right document other)
      ⟨(hright field).keys, (hright field).nodup, (hright field).last, (hright field).index,
        (hright field).sources, (hright field).read⟩ fun other _ => hright other
  settled := hat.settled
  around := by
    refine ⟨hat.around.locals, hat.around.pending, forall_update (MapAt frame) ?_ fun other _ =>
      hat.around.maps other⟩
    have hmap := hat.around.maps field
    exact ⟨hmap.sources, hmap.indexed, hmap.done⟩

theorem tfMapInit_meets (field : MapField) :
    Meets (Balanced document) (At document frame (Free entry)) (tfMapInit allocates field)
      (fun _ => At document frame (Free entry)) (Fallen document AnyEntry) := by
  refine Meets.current.bind fun start => Meets.ite (fun _ => ?_) fun _ => ?_
  · exact Meets.pure fun _ h => h.2
  · refine (allocated_meets.conseq (fun _ h => h.2) (fun _ _ h => h) fun _ h => h).bind fun _ =>
      Meets.ite (fun _ => ?_) fun _ => Meets.throw fun _ hat => hat.fallen.mono fun _ _ => trivial
    exact step_meets fun fields hat => initialize_at frame hat field

section Storing

variable {frame} {field : MapField} {child : YamlNode} {key : Tstr} {fields : FieldsMemory}
  {built : TaskEntry}

/-- The entry that is being built comes next. -/
theorem comes_of_built (hat : At document frame (Free (Built document child field key)) fields)
    (hkey : document.fieldDecode child true = .ok key.text)
    (hnext : frame.done field ++ [child] <+: (frame.sources field).flatMap document.children) :
    ∃ built, fields.entry = some built ∧ built.key = key ∧
      Comes document field (fields.maps field) child built := by
  obtain ⟨_, built, hentry, hsame, hcontents⟩ := hat.around.locals
  refine ⟨built, hentry, hsame, ?_, hsame ▸ hkey, hcontents⟩
  rw [(hat.around.maps field).done, (hat.around.maps field).sources]
  exact hnext

/-- The other maps are where they were when a child is stored in one of them. -/
theorem maps_store (hat : At document frame locals fields) {map : OwnedMap}
    (hmap : map.sources = (fields.maps field).sources ∧ map.stored.map Occurrence.child =
      (fields.maps field).stored.map Occurrence.child ++ [child])
    (hindexed : ∀ (place : Nat) entry, map.entries[place]? = some entry →
      (entry.key, place) ∈ map.index) :
    ∀ other, MapAt (frame.store field child) other (Function.update fields.maps field map other) := by
  have hfield := hat.around.maps field
  refine forall_update (MapAt (frame.store field child))
    ⟨hmap.1.trans hfield.sources, hindexed, ?_⟩ fun other hother => ?_
  · rw [hmap.2, hfield.done]
    simp only [Frame.store, Function.update_self]
  · have hmapAt := hat.around.maps other
    refine ⟨hmapAt.sources, hmapAt.indexed, hmapAt.done.trans ?_⟩
    simp only [Frame.store, Function.update_of_ne hother]

/-- The entry takes the place of the value of an entry with its key. -/
theorem replaceEntry_at (hat : At document frame locals fields)
    (hlocals : fields.text = none) (hentry : fields.entry = some built)
    (hcomes : Comes document field (fields.maps field) child built) {place : Nat}
    {replaced : TaskEntry} (hplace : (fields.maps field).entries[place]? = some replaced)
    (hkey : replaced.key.text = built.key.text) :
    Balanced document (fields.replaceEntry field child place) ∧
      Around (frame.store field child) (Free NoEntry) (fields.replaceEntry field child place) := by
  have hmaps : (fields.replaceEntry field child place).maps =
      Function.update fields.maps field ((fields.maps field).replace child place built) := by
    simp only [replaceEntry, hentry, withMap]
  refine ⟨hat.balanced.moved (owned_replaceEntry hplace) ?_ ?_, ?_, ?_, ?_⟩
  · simp only [replaceEntry, hentry, withMap, and_self]
  · rw [hmaps]
    exact forall_update (fun other map => map.Right document other)
      ((hat.balanced.maps field).replace hcomes hplace hkey) fun other _ => hat.balanced.maps other
  · simp only [replaceEntry, hentry, withMap, hlocals]
    exact ⟨rfl, rfl⟩
  · simp only [replaceEntry, hentry, withMap]
    exact hat.around.pending
  · rw [hmaps]
    refine maps_store hat ⟨rfl, by rw [OwnedMap.replace, List.map_append, List.map_singleton]⟩ ?_
    intro index entry hindex
    simp only [OwnedMap.replace, List.getElem?_modify, Option.map_eq_map] at hindex ⊢
    obtain ⟨old, hold, rfl⟩ := Option.map_eq_some_iff.mp hindex
    have hrow := (hat.around.maps field).indexed index old hold
    split <;> exact hrow

/-- Where a reader stands once the last entry of a map gets into the index. -/
structure Unindexed (document : YamlDocument) (frame : Frame) (field : MapField)
    (fields : FieldsMemory) : Prop where
  fallen : Fallen document NoEntry fields
  indexed : At document frame (Free NoEntry) (fields.withMap field OwnedMap.putLast)

/-- The entry becomes the last one of the map. -/
theorem pushEntry_at (hat : At document frame locals fields)
    (hlocals : fields.text = none) (hentry : fields.entry = some built)
    (hcomes : Comes document field (fields.maps field) child built)
    (hnew : ∀ entry ∈ (fields.maps field).entries, entry.key.text ≠ built.key.text) :
    Unindexed document (frame.store field child) field (fields.pushEntry field child) := by
  have hpush : fields.pushEntry field child =
      { fields.withMap field (OwnedMap.push child built) with entry := none } := by
    simp only [pushEntry, hentry]
  have hright := (hat.balanced.maps field).push hcomes hnew
  have hbalanced : Balanced document (fields.pushEntry field child) := by
    refine hat.balanced.moved (owned_pushEntry field child) ?_ ?_
    · rw [hpush]
      exact ⟨rfl, rfl, rfl⟩
    · rw [hpush]
      exact forall_update (fun other map => map.Right document other) hright fun other _ =>
        hat.balanced.maps other
  have hpushed : (fields.pushEntry field child).maps field =
      (fields.maps field).push child built := by
    rw [hpush]
    exact Function.update_self ..
  have hmaps : ((fields.pushEntry field child).withMap field OwnedMap.putLast).maps =
      Function.update fields.maps field ((fields.maps field).push child built).putLast := by
    rw [withMap, hpushed, hpush]
    exact Function.update_idem ..
  refine ⟨⟨hbalanced, ?_, ?_, ?_⟩, ?_, ?_, ?_⟩
  · rw [hpush]
    exact hat.settled
  · rw [hpush]
    exact hlocals
  · rw [hpush]
    exact rfl
  · refine hbalanced.moved (owned_withMap rfl) ⟨rfl, rfl, rfl⟩ ?_
    rw [hmaps]
    exact forall_update (fun other map => map.Right document other) hright.putLast fun other _ =>
      hat.balanced.maps other
  · rw [hpush]
    exact hat.settled
  · refine ⟨?_, ?_, ?_⟩
    · rw [hpush]
      exact ⟨hlocals, rfl⟩
    · rw [hpush]
      exact hat.around.pending
    · rw [hmaps]
      refine maps_store hat ⟨rfl, ?_⟩ ?_
      · rw [OwnedMap.putLast, OwnedMap.push, List.map_append, List.map_singleton]
      intro place entry hplace
      simp only [OwnedMap.putLast, OwnedMap.push, List.getLast?_concat, Option.toList_some,
        List.map_singleton, List.mem_append, List.mem_singleton, List.length_append,
        List.length_singleton] at hplace ⊢
      rcases Nat.lt_trichotomy place (fields.maps field).entries.length with hlt | heq | hgt
      · rw [List.getElem?_append_left hlt] at hplace
        exact .inl ((hat.around.maps field).indexed place entry hplace)
      · subst heq
        rw [List.getElem?_concat_length, Option.some.injEq] at hplace
        subst hplace
        exact .inr rfl
      · rw [List.getElem?_eq_none (by simp; omega)] at hplace
        cases hplace

end Storing

/-- An entry is stored. -/
theorem tfStore_meets (field : MapField) (child : YamlNode) (key : Tstr)
    (hkey : document.fieldDecode child true = .ok key.text)
    (hnext : frame.done field ++ [child] <+: (frame.sources field).flatMap document.children) :
    Meets (Balanced document) (At document frame (Free (Built document child field key)))
      (tfStore allocates document field child)
      (fun _ => At document (frame.store field child) (Free NoEntry))
      (Fallen document NoEntry) := by
  refine (Meets.guarded (tfMapInit_meets frame field) disposeFallen_meets).bind fun _ =>
    Meets.current.bind fun start => ?_
  -- the entry is looked up at the state now, so what is found is known of it
  by_cases hstart : At document frame (Free (Built document child field key)) start
  swap
  · intro course _ hnow
    exact absurd (hnow.1 ▸ hnow.2) hstart
  obtain ⟨built, hentry, _, hcomes⟩ := comes_of_built hstart hkey hnext
  have hright := hstart.balanced.maps field
  rw [hentry, Option.bind_some]
  obtain ⟨hfind, hnew⟩ | ⟨place, replaced, hfind, hplace, hsame⟩ :=
    hright.find_cases (hstart.around.maps field).indexed built.key.text
  · rw [hfind]
    have hleave : Meets (Balanced document)
        (fun fields => start = fields ∧
          At document frame (Free (Built document child field key)) fields)
        (dispose discardEntry : FieldsReader PUnit) (fun _ => At document frame (Free NoEntry))
        (Fallen document NoEntry) :=
      disposeEntry_meets.conseq (fun _ h => h.2) (fun _ _ h => h) fun _ h => h
    refine Meets.ite (fun _ => hleave.bind fun _ => tfError_meets child _) fun _ => ?_
    -- an allocation changes nothing that the lookup has read
    let same (fields : FieldsMemory) : Prop :=
      ∃ attempts, fields = { start with attempts := attempts }
    have hallocated : Meets (Balanced document) same (allocated allocates) (fun _ => same)
        (Fallen document NoEntry) := by
      refine Meets.current.bind fun before => (Meets.step (fun _ => same) ?_ ?_).bind fun _ =>
        Meets.pure fun _ h => h
      · rintro fields ⟨_, attempts, rfl⟩
        exact (hstart.counted attempts _ _ _ _).balanced
      · rintro fields ⟨_, attempts, rfl⟩
        exact ⟨_, rfl⟩
    refine (hallocated.conseq ?_ (fun _ _ h => h) fun _ h => h).bind fun _ =>
      Meets.ite (fun _ => ?_) fun _ => ?_
    · rintro fields ⟨rfl, _⟩
      exact ⟨start.attempts, rfl⟩
    · refine (Meets.step (fun _ => Unindexed document (frame.store field child) field) ?_ ?_).bind
        fun _ => ?_
      · rintro fields ⟨attempts, rfl⟩
        exact (hstart.counted attempts _ _ _ _).balanced
      · rintro fields ⟨attempts, rfl⟩
        have hat := hstart.counted attempts start.expandedStrings start.sequence start.hasTimeout
          start.hasWhen
        exact pushEntry_at hat hstart.around.locals.1 hentry hcomes hnew
      · have hagain : Meets (Balanced document)
            (Unindexed document (frame.store field child) field) (allocated allocates)
            (fun _ => Unindexed document (frame.store field child) field)
            (Fallen document NoEntry) := by
          refine Meets.current.bind fun before => (Meets.step
            (fun _ => Unindexed document (frame.store field child) field) ?_ ?_).bind fun _ =>
              Meets.pure fun _ h => h
          · rintro fields ⟨_, hunindexed⟩
            exact hunindexed.fallen.balanced
          · rintro fields ⟨_, hfallen, hindexed⟩
            refine ⟨⟨?_, hfallen.settled, hfallen.text, hfallen.entry⟩, ?_⟩
            · exact ⟨hfallen.balanced.bytes, hfallen.balanced.bytes_le, hfallen.balanced.serials,
                hfallen.balanced.maps⟩
            · exact hindexed.counted _ fields.expandedStrings fields.sequence fields.hasTimeout
                fields.hasWhen
        refine hagain.bind fun _ => Meets.ite (fun _ => ?_) fun _ => ?_
        · exact Meets.step _ (fun _ h => h.fallen.balanced) fun _ h => h.indexed
        · exact Meets.throw fun _ h => h.fallen
    · have hdrop : Meets (Balanced document) same (dispose discardEntry : FieldsReader PUnit)
          (fun _ => At document frame (Free NoEntry)) (Fallen document NoEntry) := by
        refine Meets.conseq (@disposeEntry_meets document frame (Built document child field key) _) ?_
          (fun _ _ h => h) fun _ h => h
        rintro fields ⟨attempts, rfl⟩
        exact hstart.counted attempts _ _ _ _
      exact hdrop.bind fun _ => Meets.throw fun _ hat => hat.fallen
  · rw [hfind]
    refine dispose_at (fun _ h => h.2.balanced) ?_
    rintro fields ⟨rfl, hat⟩
    exact replaceEntry_at hat hat.around.locals.1 hentry hcomes hplace hsame

/-- One child is read and stored. -/
theorem tfEntry_meets (field : MapField) (child : YamlNode)
    (hnext : frame.done field ++ [child] <+: (frame.sources field).flatMap document.children) :
    Meets (Balanced document) (At document frame (Free NoEntry))
      (tfEntry allocates document field child)
      (fun _ => At document (frame.store field child) (Free NoEntry))
      (Fallen document NoEntry) := by
  refine (tfDecode_meets child true).bind fun _ =>
    (step_meets fun fields hat => keepKey_at hat).bind fun _ => ?_
  have hrest (key : Tstr) : Meets (Balanced document)
      (fun fields => document.fieldDecode child true = .ok key.text ∧
        At document frame (Free (· = some ⟨key, none, []⟩)) fields)
      (do
        guarded (entryValue allocates document child field) (dispose discardEntry)
        tfStore allocates document field child)
      (fun _ => At document (frame.store field child) (Free NoEntry))
      (Fallen document NoEntry) :=
    Meets.given fun hkey => (Meets.guarded (entryValue_meets frame child field key)
      disposeFallen_meets).bind fun _ => tfStore_meets frame field child key hkey hnext
  refine (Meets.exists hrest).conseq ?_ (fun _ _ h => h) fun _ h => h
  intro fields hat
  obtain ⟨hfree, key, hkey, hentry⟩ := hat.around.locals
  exact ⟨key, hkey, hat.told ⟨hfree, hentry⟩⟩

/-- Before its first child a mapping is recorded. -/
theorem source_at {frame : Frame} {fields : FieldsMemory}
    (hat : At document frame locals fields) (field : MapField) (node : YamlNode) :
    At document (frame.source field node) locals
      (fields.withMap field fun map => { map with sources := map.sources ++ [node] }) where
  balanced := by
    refine hat.balanced.moved (owned_withMap rfl) ⟨rfl, rfl, rfl⟩ ?_
    have hright := hat.balanced.maps field
    refine forall_update (fun other map => map.Right document other)
      ⟨hright.keys, hright.nodup, hright.last, hright.index, ?_, hright.read⟩ fun other _ =>
        hat.balanced.maps other
    simp only [List.flatMap_append]
    exact hright.sources.trans (List.prefix_append ..)
  settled := hat.settled
  around := by
    refine ⟨hat.around.locals, hat.around.pending, forall_update (MapAt (frame.source field node))
      ?_ fun other hother => ?_⟩
    · have hmap := hat.around.maps field
      refine ⟨?_, hmap.indexed, hmap.done⟩
      simp only [Frame.source, Function.update_self, hmap.sources]
    · have hmap := hat.around.maps other
      refine ⟨?_, hmap.indexed, hmap.done⟩
      simp only [Frame.source, Function.update_of_ne hother, hmap.sources]

end FieldsReader

/-! ## Whole kinds -/

/-- Between two readers: no local holds anything, the maps are complete for the mappings that were
read into them, and these fields have no text. -/
def Idle (document : YamlDocument) (pending : List TextField)
    (sources : MapField → List YamlNode) : FieldsMemory → Prop :=
  At document ⟨pending, sources, fun field => (sources field).flatMap document.children⟩
    (Free NoEntry)

/-- The mappings after one more was read into a map. -/
def withSource (sources : MapField → List YamlNode) (field : MapField) (node : YamlNode) :
    MapField → List YamlNode :=
  Function.update sources field (sources field ++ [node])

namespace FieldsReader

open FieldsMemory

variable {allocates : Nat → Bool} {document : YamlDocument} {pending : List TextField}
  {sources : MapField → List YamlNode}

/-- A reader that goes from one idle place to another. -/
def Rests (document : YamlDocument) (pending : List TextField)
    (sources : MapField → List YamlNode) (reader : FieldsReader PUnit) (left : List TextField)
    (read : MapField → List YamlNode) : Prop :=
  Meets (Balanced document) (Idle document pending sources) reader
    (fun _ => Idle document left read) (Fallen document NoEntry)

theorem Idle.mono {left : List TextField} (hsubset : left ⊆ pending) {fields : FieldsMemory}
    (hidle : Idle document pending sources fields) : Idle document left sources fields :=
  ⟨hidle.balanced, hidle.settled, hidle.around.locals,
    fun field hfield => hidle.around.pending field (hsubset hfield), fun field =>
      ⟨(hidle.around.maps field).sources, (hidle.around.maps field).indexed,
        (hidle.around.maps field).done⟩⟩

theorem rests_error (node : YamlNode) (message : Bytes) (left : List TextField)
    (read : MapField → List YamlNode) :
    Rests document pending sources (tfError allocates document node message) left read :=
  tfError_meets node message

theorem rests_pure : Rests document pending sources (pure ⟨⟩) pending sources :=
  Meets.pure fun _ h => h

theorem Rests.bind {first second : FieldsReader PUnit} {between left : List TextField}
    {middle read : MapField → List YamlNode}
    (hfirst : Rests document pending sources first between middle)
    (hsecond : Rests document between middle second left read) :
    Rests document pending sources (do first; second) left read :=
  Meets.bind hfirst fun _ => hsecond

/-- What a reader does may depend on the state. -/
theorem rests_current {left : List TextField} {read : MapField → List YamlNode}
    {rest : FieldsMemory → FieldsReader PUnit}
    (hrest : ∀ fields, Rests document pending sources (rest fields) left read) :
    Rests document pending sources (do let fields ← current; rest fields) left read :=
  Meets.current.bind fun fields => (hrest fields).conseq (fun _ h => h.2) (fun _ _ h => h)
    fun _ h => h

theorem rests_raise {α : Type} {result : Except Bytes α} {rest : α → FieldsReader PUnit}
    {left : List TextField} {read : MapField → List YamlNode}
    (hrest : ∀ value, result = .ok value → Rests document pending sources (rest value) left read) :
    Rests document pending sources (do let value ← raise allocates result; rest value) left read :=
  (raise_meets result).bind fun value => Meets.given fun hvalue => hrest value hvalue

theorem rests_ite {condition : Prop} [Decidable condition] {first second : FieldsReader PUnit}
    {left : List TextField} {read : MapField → List YamlNode}
    (hfirst : condition → Rests document pending sources first left read)
    (hsecond : ¬ condition → Rests document pending sources second left read) :
    Rests document pending sources (if condition then first else second) left read :=
  Meets.ite hfirst hsecond

theorem Rests.mono {reader : FieldsReader PUnit} {left less : List TextField}
    {read : MapField → List YamlNode} (hrests : Rests document pending sources reader left read)
    (hsubset : less ⊆ left) : Rests document pending sources reader less read :=
  hrests.conseq (fun _ h => h) (fun _ _ h => Idle.mono hsubset h) fun _ h => h

theorem rests_list (slot : Fin 3) (node : YamlNode) :
    Rests document pending sources (tfList allocates document (.owner slot) node) pending
      sources := by
  refine (tfList_meets _ (.owner slot) node ⟨0, ⟨[], List.not_mem_nil⟩⟩ fun _ _ h => h).conseq
    (fun _ h => h) (fun _ fields hat => hat.told ?_) fun _ h => h
  obtain ⟨hfree, _, _, hentry⟩ := hat.around.locals
  exact ⟨hfree, hentry⟩

theorem rests_map (field : MapField) (node : YamlNode) :
    Rests document pending sources (tfMap allocates document field node) pending
      (withSource sources field node) := by
  refine Meets.ite (fun _ => tfError_meets node _) fun _ => ?_
  let frame (before : List YamlNode) : Frame :=
    ⟨pending, withSource sources field node, Function.update
      (fun field => (sources field).flatMap document.children) field
        ((sources field).flatMap document.children ++ before)⟩
  have hstore (before : List YamlNode) (item : YamlNode) :
      frame (before ++ [item]) = (frame before).store field item := by
    simp only [frame, Frame.store, Function.update_self, Function.update_idem, List.append_assoc]
  have hsource : (withSource sources field node field).flatMap document.children =
      (sources field).flatMap document.children ++ document.children node := by
    rw [withSource, Function.update_self, List.flatMap_append, List.flatMap_singleton]
  have hwhole : frame (document.children node) =
      ⟨pending, withSource sources field node, fun other =>
        (withSource sources field node other).flatMap document.children⟩ := by
    simp only [frame, Frame.mk.injEq, true_and]
    funext other
    by_cases hother : other = field
    · subst hother
      rw [Function.update_self, hsource]
    · rw [Function.update_of_ne hother, withSource, Function.update_of_ne hother]
  refine (step_meets fun fields hat => source_at hat field node).bind fun _ => ?_
  have hloop : Meets (Balanced document) (At document (frame []) (Free NoEntry))
      ((document.children node).forM (tfEntry allocates document field))
      (fun _ => At document (frame (document.children node)) (Free NoEntry))
      (Fallen document NoEntry) := by
    refine Meets.forM (fun before => At document (frame before) (Free NoEntry))
      fun before item hprefix => ?_
    rw [hstore]
    apply tfEntry_meets
    simp only [frame, Function.update_self, hsource]
    rw [List.append_assoc, List.prefix_append_right_inj]
    exact hprefix
  rw [hwhole] at hloop
  refine hloop.conseq (fun fields hat => ?_) (fun _ _ h => h) fun _ h => h
  simp only [frame, List.append_nil, Function.update_eq_self]
  exact hat

/-- A member is read when the mapping has it. -/
theorem rests_member {node : YamlNode} {key : String} {reader : YamlNode → FieldsReader PUnit}
    {left : List TextField} {read : MapField → List YamlNode}
    (hread : document.has node (ascii key) = true →
      Rests document pending sources (reader (document.fieldGet node (ascii key))) left read)
    (hskip : document.has node (ascii key) = false → left ⊆ pending ∧ sources = read) :
    Rests document pending sources (member allocates document node key reader) left read := by
  refine rests_ite (fun hhas => rests_raise fun field hfield => ?_) fun hhas => ?_
  · rw [Except.ok.injEq] at hfield
    subst hfield
    exact hread hhas
  · obtain ⟨hsubset, rfl⟩ := hskip (by simpa using hhas)
    exact rests_pure.mono hsubset

/-- A text is decoded into a field that has none. -/
theorem rests_decodeField {field : TextField} (hfield : field ∈ pending) (node : YamlNode)
    {left : List TextField} (hleft : left ⊆ pending ∧ field ∉ left) :
    Rests document pending sources (decodeField allocates document field node) left sources := by
  refine (tfDecode_meets node false).bind fun _ => step_meets fun fields hat => ?_
  have hnone := hat.around.pending field hfield
  refine ⟨hat.balanced.moved (owned_keepField hnone) ⟨rfl, rfl, rfl⟩ hat.balanced.maps,
    hat.settled, ⟨rfl, hat.around.locals.2⟩, ?_, fun other =>
      ⟨(hat.around.maps other).sources, (hat.around.maps other).indexed,
        (hat.around.maps other).done⟩⟩
  intro other hother
  have hne : other ≠ field := by
    rintro rfl
    exact hleft.2 hother
  simp only [keepField, Function.update_of_ne hne]
  exact hat.around.pending other (hleft.1 hother)

/-- A text that may not be empty is decoded into a field. -/
theorem rests_nonEmptyField {field : TextField} (hfield : field ∈ pending) (node : YamlNode)
    (message : String) {left : List TextField} (hleft : left ⊆ pending ∧ field ∉ left) :
    Rests document pending sources (nonEmptyField allocates document field node message) left
      sources :=
  (rests_decodeField hfield node hleft).bind
    (rests_current fun _ => rests_ite (fun _ => rests_error _ _ _ _) fun _ => rests_pure)

theorem rests_optional {field : TextField} (hfield : field ∈ pending) (node : YamlNode)
    (key : String) (left : List TextField) (hleft : left ⊆ pending ∧ field ∉ left) :
    Rests document pending sources (tfOptional allocates document node key field) left sources :=
  rests_member (fun _ => rests_decodeField hfield _ hleft) fun _ => ⟨hleft.1, rfl⟩

theorem rests_required {field : TextField} (hfield : field ∈ pending) (node : YamlNode)
    (key missing empty : String) (left : List TextField) (hleft : left ⊆ pending ∧ field ∉ left) :
    Rests document pending sources (tfRequired allocates document node key missing empty field)
      left sources :=
  rests_ite (fun _ => rests_raise fun child _ => rests_nonEmptyField hfield child empty hleft)
    fun _ => rests_error _ _ _ _

/-- A field is given up. -/
theorem rests_discardField (field : TextField) :
    Rests document pending sources (dispose (discardField field)) pending sources := by
  refine dispose_at (fun _ hat => hat.balanced) fun fields hat => ⟨hat.balanced.moved
    (owned_discardField field) ⟨rfl, rfl, rfl⟩ hat.balanced.maps, hat.around.locals, ?_,
      hat.around.maps⟩
  intro other hother
  by_cases hsame : other = field
  · subst hsame
    exact Function.update_self ..
  · simp only [discardField, Function.update_of_ne hsame]
    exact hat.around.pending other hother

/-- The flags are of no account. -/
theorem rests_flags (change : FieldsMemory → Bool × Bool × Bool) :
    Rests document pending sources (step fun fields => { fields with
      sequence := (change fields).1
      hasTimeout := (change fields).2.1
      hasWhen := (change fields).2.2 }) pending sources :=
  step_meets fun _ hat => hat.counted _ _ _ _ _

/-- The mappings that a kind reads into the maps. -/
def sourcesOf (document : YamlDocument) (node : YamlNode) : FieldsKind → MapField → List YamlNode
  | .stringMap => withSource (fun _ => []) .strings node
  | .each =>
      if document.has node (ascii "matrix") then
        withSource (fun _ => []) .matrix (document.fieldGet node (ascii "matrix"))
      else fun _ => []
  | .dynamicTasks =>
      let template := document.fieldGet node (ascii "template")
      if document.has template (ascii "env") then
        withSource (fun _ => []) .strings (document.fieldGet template (ascii "env"))
      else fun _ => []
  | _ => fun _ => []

theorem rests_each (node : YamlNode) :
    Rests document TextField.all (fun _ => []) (tfEach allocates document node) []
      (sourcesOf document node .each) := by
  refine rests_ite (fun _ => rests_error _ _ _ _) fun _ => rests_raise fun _ _ => ?_
  refine (rests_member (fun _ => rests_list 0 _) fun _ => ⟨List.Subset.refl _, rfl⟩).bind ?_
  have hmatrix : Rests document TextField.all (fun _ => [])
      (member allocates document node "matrix" (tfMap allocates document .matrix)) TextField.all
      (sourcesOf document node .each) := by
    refine rests_member (fun hhas => ?_) fun hhas => ⟨List.Subset.refl _, ?_⟩
    · simp only [sourcesOf, hhas, if_true]
      exact rests_map .matrix _
    · simp only [sourcesOf, hhas, Bool.false_eq_true, if_false]
  refine hmatrix.bind (rests_current fun _ => rests_ite (fun _ => rests_error _ _ _ _) fun _ =>
    rests_ite (fun _ => rests_error _ _ _ _) fun _ => ?_)
  have hdrop : Rests document [.indexVariable] (sourcesOf document node .each) dropEmptyAs
      [.indexVariable] (sourcesOf document node .each) :=
    rests_current fun _ => rests_ite (fun _ => rests_discardField .as) fun _ => rests_pure
  refine (rests_optional (mem_textFields .as) node "as" [.indexVariable] (by decide)).bind
    (hdrop.bind ?_)
  exact rests_optional (List.mem_singleton_self _) node "index_variable" [] (by decide)

theorem rests_triggerGroup (slot : Fin 3) (node : YamlNode) :
    Rests document pending sources (triggerGroup allocates document slot node) pending sources := by
  refine rests_ite (fun _ => rests_error _ _ _ _) fun _ => ?_
  have hnames : Rests document pending sources
      ((document.children node).forM (triggerName allocates document slot)) pending sources := by
    refine Meets.forM (fun _ => Idle document pending sources) fun _ item _ => ?_
    refine rests_ite (fun _ => rests_error _ _ _ _) fun _ => Rests.bind ?_
      (rests_current fun _ => rests_ite (fun _ => rests_error _ _ _ _) fun _ => rests_pure)
    refine (tfAppend_meets _ (.owner slot) false item ⟨0, ⟨[], List.not_mem_nil⟩⟩ []).conseq
      (fun _ h => h) (fun _ fields hat => hat.told ?_) fun _ h => h
    obtain ⟨hfree, _, _, hentry⟩ := hat.around.locals
    exact ⟨hfree, hentry⟩
  exact hnames.bind (rests_current fun _ => rests_ite (fun _ => rests_error _ _ _ _) fun _ => rests_pure)

theorem rests_triggers (node : YamlNode) :
    Rests document pending sources (tfTriggers allocates document node) pending sources := by
  have hgroup (key : String) (slot : Fin 3) : Rests document pending sources
      (member allocates document node key (triggerGroup allocates document slot)) pending sources :=
    rests_member (fun _ => rests_triggerGroup slot _) fun _ => ⟨List.Subset.refl _, rfl⟩
  refine rests_ite (fun _ => rests_error _ _ _ _) fun _ => rests_raise fun _ _ => ?_
  exact (hgroup _ 0).bind ((hgroup _ 1).bind ((hgroup _ 2).bind
    (rests_ite (fun _ => rests_error _ _ _ _) fun _ => rests_pure)))

theorem rests_templateCommand (field : YamlNode) (left : List TextField)
    (hcommand : .command ∈ pending) (hleft : left ⊆ pending ∧ .command ∉ left) :
    Rests document pending sources (templateCommand allocates document field) left sources := by
  refine (rests_flags fun fields => (document.isSeq field, fields.hasTimeout, fields.hasWhen)).bind
    (rests_ite (fun _ => ?_) fun _ => rests_nonEmptyField hcommand field _ hleft)
  exact ((rests_list 0 field).bind (rests_current fun _ => rests_ite (fun _ => rests_error _ _ _ _)
    fun _ => rests_ite (fun _ => rests_error _ _ _ _) fun _ => rests_pure)).mono hleft.1

theorem rests_template (template : YamlNode) :
    Rests document [.name, .command, .timeout, .when] (fun _ => [])
      (tfTemplate allocates document template) []
      (if document.has template (ascii "env") then
        withSource (fun _ => []) .strings (document.fieldGet template (ascii "env"))
      else fun _ => []) := by
  refine rests_ite (fun _ => rests_error _ _ _ _) fun _ => rests_raise fun _ _ => ?_
  refine (rests_required (by decide) template _ _ _ [.command, .timeout, .when]
    (by decide)).bind (rests_ite (fun _ => rests_raise fun field _ => ?_) fun _ => rests_error _ _ _ _)
  refine (rests_templateCommand field [.timeout, .when] (by decide) (by decide)).bind
    ((rests_flags fun fields => (fields.sequence, _, _)).bind ?_)
  refine (rests_optional (by decide) template _ [.when] (by decide)).bind
    ((rests_optional (by decide) template _ [] (by decide)).bind ?_)
  refine (rests_member (fun _ => rests_list 1 _) fun _ => ⟨List.Subset.refl _, rfl⟩).bind
    (rests_member (fun hhas => ?_) fun hhas => ⟨List.Subset.refl _, ?_⟩)
  · rw [if_pos hhas]
    exact rests_map .strings _
  · rw [hhas, if_neg Bool.false_ne_true]

theorem rests_dynamic (node : YamlNode) :
    Rests document TextField.all (fun _ => []) (tfDynamic allocates document node) []
      (sourcesOf document node .dynamicTasks) := by
  refine rests_ite (fun _ => rests_error _ _ _ _) fun _ => rests_raise fun _ _ => ?_
  refine (rests_required (mem_textFields _) node _ _ _
    [.name, .command, .timeout, .when] (by decide)).bind
      (rests_ite (fun _ => rests_raise fun template htemplate => ?_) fun _ => rests_error _ _ _ _)
  rw [Except.ok.injEq] at htemplate
  subst htemplate
  exact rests_template _

/-- Every kind goes from the blank owner to an idle place. -/
theorem rests_ofKind (kind : FieldsKind) (node : YamlNode) :
    Rests document TextField.all (fun _ => []) (ofKind allocates document node kind) []
      (sourcesOf document node kind) := by
  cases kind with
  | stringList => exact (rests_list 0 node).mono (List.nil_subset _)
  | stringMap => exact (rests_map .strings node).mono (List.nil_subset _)
  | each => exact rests_each node
  | triggers => exact (rests_triggers node).mono (List.nil_subset _)
  | dynamicTasks => exact rests_dynamic node
  | uses => exact rests_nonEmptyField (mem_textFields _) node _ (by decide)

/-! ## Creating and destroying -/

/-- Nothing is held any more, and each string that was retained was released once. -/
structure Emptied (fields : FieldsMemory) : Prop where
  bytes : fields.retainedBytes = 0
  owned : fields.owned = []
  released : (fields.released.map Tstr.serial).Perm (List.range fields.decoded)

/-- The owner has nothing but what is about to be released. -/
structure Bare (fields : FieldsMemory) : Prop where
  lists : fields.lists = fun _ => []
  maps : ∀ field, (fields.maps field).entries = []
  texts : fields.texts = fun _ => none
  text : fields.text = none
  entry : fields.entry = none

theorem Bare.emptied {fields : FieldsMemory} (hbare : Bare fields)
    (hbalanced : Balanced document fields) (hsettled : fields.disposing = []) : Emptied fields := by
  have howned : fields.owned = [] := by
    simp [FieldsMemory.owned, OwnedMap.texts, hsettled, hbare.lists, hbare.maps, hbare.texts,
      hbare.text, hbare.entry, List.flatMap_eq_nil_iff]
  have hbytes := hbalanced.bytes
  have hserials := hbalanced.serials
  rw [howned] at hbytes hserials
  exact ⟨hbytes, howned, hserials⟩

/-- `destroy` releases everything that is left. -/
theorem destroy_meets {failed : FieldsMemory → Prop} :
    Meets (Balanced document) (Fallen document NoEntry) praktorYamlTaskFieldsDestroy
      (fun _ fields => Balanced document fields ∧ Emptied fields) failed := by
  refine (dispose_meets Bare (fun _ h => h.balanced) (fun fields h => ?_)
    (fun fields h => ⟨rfl, fun _ => rfl, rfl, h.text, h.entry⟩) fun fields hbare => ?_).conseq
      (fun _ h => h) (fun _ _ ⟨hbalanced, hsettled, hbare⟩ =>
        ⟨hbalanced, hbare.emptied hbalanced hsettled⟩) fun _ h => h
  · exact h.balanced.moved owned_discardAll ⟨rfl, rfl, rfl⟩ fun field => OwnedMap.Right.drop ..
  · rw [FieldsMemory.tfRelease]
    split
    · exact hbare
    · exact ⟨hbare.lists, hbare.maps, hbare.texts, hbare.text, hbare.entry⟩

theorem right_empty (document : YamlDocument) (field : MapField) :
    OwnedMap.empty.Right document field where
  keys := rfl
  nodup := List.nodup_nil
  last := by simp [OwnedMap.empty]
  index := by simp [OwnedMap.empty]
  sources := List.nil_prefix
  read := by simp [OwnedMap.empty]

/-- The blank owner is idle, and has nothing. -/
theorem idle_blank (document : YamlDocument) :
    Idle document TextField.all (fun _ => []) blank ∧ Emptied blank := by
  have howned : blank.owned = [] := by decide
  have hbalanced : Balanced document blank := by
    refine ⟨?_, Nat.zero_le _, ?_, right_empty document⟩
    · rw [howned]
      rfl
    · rw [howned]
      exact List.Perm.refl _
  refine ⟨⟨hbalanced, rfl, ⟨rfl, rfl⟩, fun _ _ => rfl, fun field => ⟨rfl, ?_, rfl⟩⟩, rfl, howned,
    List.Perm.refl _⟩
  intro place entry hentry
  simp [blank, OwnedMap.empty] at hentry

/-- `create` ends with an idle owner, or with nothing left. -/
theorem create_meets (kind : FieldsKind) (node : YamlNode) :
    Meets (Balanced document)
      (fun fields => Idle document TextField.all (fun _ => []) fields ∧ Emptied fields)
      (praktorYamlTaskFieldsCreate allocates document kind node)
      (fun _ => Idle document [] (sourcesOf document node kind))
      (fun fields => Balanced document fields ∧ Emptied fields) := by
  refine Meets.ite (fun _ => Meets.throw fun _ h => ⟨h.1.balanced, h.2⟩) fun _ => ?_
  have hallocated : Meets (Balanced document)
      (fun fields => Idle document TextField.all (fun _ => []) fields ∧ Emptied fields)
      (allocated allocates)
      (fun _ fields => Idle document TextField.all (fun _ => []) fields ∧ Emptied fields)
      (fun fields => Balanced document fields ∧ Emptied fields) := by
    refine Meets.current.bind fun before => (Meets.step (fun _ fields =>
      Idle document TextField.all (fun _ => []) fields ∧ Emptied fields) ?_ ?_).bind fun _ =>
        Meets.pure fun _ h => h
    · rintro fields ⟨_, hidle, _⟩
      exact hidle.balanced
    · rintro fields ⟨_, hidle, hempty⟩
      exact ⟨hidle.counted _ _ _ _ _, hempty.bytes, hempty.owned, hempty.released⟩
  refine hallocated.bind fun _ => Meets.ite (fun _ => ?_) fun _ =>
    Meets.throw fun _ h => ⟨h.1.balanced, h.2⟩
  exact Meets.guarded ((rests_ofKind kind node).conseq (fun _ h => h.1) (fun _ _ h => h)
    fun _ h => h) destroy_meets

/-- The run of `create`. -/
def created (allocates : Nat → Bool) (document : YamlDocument) (kind : FieldsKind)
    (node : YamlNode) : Except TaskFailure PUnit × Course FieldsMemory :=
  Stateful.on (praktorYamlTaskFieldsCreate allocates document kind node) (.start blank)

/-- The run of `destroy` that follows a run. -/
def destroyed (course : Course FieldsMemory) : Course FieldsMemory :=
  (Stateful.on praktorYamlTaskFieldsDestroy course).2

/-- What is claimed of `create`, and of `destroy` after it. -/
structure Accounted (allocates : Nat → Bool) (document : YamlDocument) (kind : FieldsKind)
    (node : YamlNode) : Prop where
  /-- At every state the account is that of the strings that are held, and the maps are right. -/
  states : ∀ fields ∈ (created allocates document kind node).2.states, Balanced document fields
  /-- No release takes the account below zero. -/
  covers : ∀ fields ∈ (created allocates document kind node).2.states, ∀ text ∈ fields.owned,
    text.text.length + 1 ≤ fields.retainedBytes
  /-- After a failure nothing is left, and each string was released once. -/
  failed : ∀ failure, (created allocates document kind node).1 = .error failure →
    Emptied (created allocates document kind node).2.now
  /-- After success the maps are complete for the mappings that the kind reads; and `destroy` keeps
  the account at every state, leaves nothing, and has released each string once. -/
  succeeded : (created allocates document kind node).1 = .ok ⟨⟩ →
    Idle document [] (sourcesOf document node kind) (created allocates document kind node).2.now ∧
    (∀ fields ∈ (destroyed (created allocates document kind node).2).states,
      Balanced document fields) ∧
    Emptied (destroyed (created allocates document kind node).2).now

/-- **The byte account of task fields never drifts.**  For every node, every kind and every
allocation that fails. -/
theorem task_field_bytes_accounted (allocates : Nat → Bool) (document : YamlDocument)
    (kind : FieldsKind) (node : YamlNode) : Accounted allocates document kind node := by
  have hempty : ∀ fields ∈ (Course.start blank).past, Balanced document fields := by
    simp [Course.start]
  have hmeets := @create_meets allocates document kind node
  have hstates : ∀ fields ∈ (created allocates document kind node).2.states,
      Balanced document fields :=
    hmeets.states (fun _ _ h => h.balanced) (fun _ h => h.1) hempty (idle_blank document)
  obtain ⟨hpast, hresult⟩ := hmeets (.start blank) hempty (idle_blank document)
  refine ⟨hstates, fun fields hfields text htext => (hstates fields hfields).covers htext, ?_, ?_⟩
  · intro failure hfailure
    rw [created] at hfailure ⊢
    rw [hfailure] at hresult
    exact hresult.2
  · intro hok
    rw [created] at hok ⊢
    rw [hok] at hresult
    have hdestroy := @destroy_meets document fun fields => Balanced document fields ∧ Emptied fields
    have hfallen := At.fallen hresult
    exact ⟨hresult, hdestroy.states (fun _ _ h => h.1) (fun _ h => h.1) hpast hfallen,
      (hdestroy.ends hpast hfallen).2⟩

end FieldsReader

end Praktor.Yaml
