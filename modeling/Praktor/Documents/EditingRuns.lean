/-
# Runs of edits

A caller of `workflow_value.c` has variables with a document each.  It makes documents and drops
them, and it assigns, appends and erases, as copies or by handing a document over, while any calls
of the JSON library fail.  The documents change as values do, the variables own the trees between
them, and no run frees a tree twice or uses one that is gone.
-/

import Praktor.Documents.Appending
import Praktor.Math.Simulation

namespace Praktor.Documents

open Praktor.Data

universe u

variable {ι : Type u} [DecidableEq ι]

/-! ## The caller -/

/-- The variables of the caller, and the memory. -/
structure Editing (ι : Type u) where
  slots : ι → Option Nat
  forest : Forest

/-- A value that is copied from a document, or a document that is handed over. -/
inductive Supply (ι : Type u)
  | copy (origin : ι) (path : List Bytes)
  | take (source : ι)

/-- The variable that is emptied when the document of another one is changed. -/
def Supply.handed (slot : ι) : Supply ι → Option ι
  | .copy _ _ => none
  | .take source => if source = slot then none else some source

def Supply.taking (slot : ι) : Supply ι → Taking
  | .copy _ _ => .copy
  | .take source => if source = slot then .root else .other

/-- The document that is changed is put in itself. -/
def Supply.itself (slot : ι) : Supply ι → Bool
  | .copy origin path => decide (origin = slot ∧ path = [])
  | .take source => decide (source = slot)

inductive EditCall (ι : Type u)
  | make (slot : ι) (value : Json)
  | drop (slot : ι)
  | set (slot : ι) (keys : List (Option Bytes)) (supply : Supply ι)
  | append (slot : ι) (keys : List (Option Bytes)) (supply : Supply ι)
  | erase (slot : ι) (index : Nat)

namespace Editing

variable (objects : JsonObjects)

/-- The node of a supply, if it leads to one. -/
def ref (s : Editing ι) : Supply ι → Option JsonRef
  | .copy origin path => (s.slots origin).bind fun tree =>
      if (Json.findPath (s.forest.trees tree) path).isSome then some ⟨tree, path⟩ else none
  | .take source => (s.slots source).map fun tree => ⟨tree, []⟩

/-- A caller makes a document of its own and frees the one before. -/
def make (value : Json) (root : Option Nat) (forest : Forest) : Option Assigned :=
  match forest.allocate value with
  | (none, asked) => some ⟨.enomem, none, ⟨root, none⟩, asked⟩
  | (some handle, created) =>
      (created.release root).map fun freed => ⟨.ok, none, ⟨some handle, none⟩, freed⟩

def set (s : Editing ι) (slot : ι) (keys : List (Option Bytes)) (supply : Supply ι)
    (forest : Forest) : Option Assigned :=
  match supply with
  | .copy _ _ => praktorValueSetCopy objects keys (s.ref supply) (s.slots slot) forest
  | .take source =>
      if source = slot then praktorValueSetTakeRoot objects keys (s.slots slot) forest
      else praktorValueSetTake objects keys (s.slots slot) (s.slots source) forest

def append (s : Editing ι) (slot : ι) (keys : List (Option Bytes)) (supply : Supply ι)
    (forest : Forest) : Option Assigned :=
  match supply with
  | .copy _ _ => praktorValueAppendCopy keys (s.ref supply) (s.slots slot) forest
  | .take source =>
      if source = slot then praktorValueAppendTakeRoot keys (s.slots slot) forest
      else praktorValueAppendTake keys (s.slots slot) (s.slots source) forest

/-- A variable is emptied. -/
def emptied {α : Type*} (handed : Option ι) (papers : ι → Option α) : ι → Option α :=
  match handed with
  | none => papers
  | some source => Function.update papers source none

/-- A call has written to the variables that it was given. -/
def written (s : Editing ι) (slot : ι) (handed : Option ι) (outcome : Assigned) : Editing ι where
  slots := Function.update
    (match handed with
      | none => s.slots
      | some source => Function.update s.slots source outcome.holders.taken)
    slot outcome.holders.root
  forest := outcome.forest

/-- A run that frees a tree twice, or uses one that is gone, is stopped. -/
def answered (s : Editing ι) (slot : ι) (handed : Option ι) :
    Option Assigned → Editing ι × Option Salts
  | none => (s, none)
  | some outcome => (s.written slot handed outcome, some outcome.code)

/-- The memory when these failures of the library are due. -/
def due (s : Editing ι) (failures : List Bool) : Forest :=
  { s.forest with failures }

/-- A call, with the failures of the library that are due in it. -/
def serve (s : Editing ι) (request : List Bool × EditCall ι) : Editing ι × Option Salts :=
  let forest := s.due request.1
  match request.2 with
  | .make slot value => s.answered slot none (make value (s.slots slot) forest)
  | .drop slot => s.answered slot none
      ((forest.release (s.slots slot)).map fun freed => ⟨.ok, none, ⟨none, none⟩, freed⟩)
  | .set slot keys supply =>
      s.answered slot (supply.handed slot) (s.set objects slot keys supply forest)
  | .append slot keys supply =>
      s.answered slot (supply.handed slot) (s.append slot keys supply forest)
  | .erase slot index => s.answered slot none (praktorValueErase index (s.slots slot) forest)

end Editing

/-! ## Documents as values -/

section Papers

variable (objects : JsonObjects)

/-- The value that a supply leads to. -/
def supplied (papers : ι → Option Json) : Supply ι → Option Json
  | .copy origin path => Json.findPath (papers origin) path
  | .take source => papers source

/-- The value and the path of a call, when it has both. -/
def given (papers : ι → Option Json) (keys : List (Option Bytes)) (supply : Supply ι) :
    Option (Json × List Bytes) :=
  (supplied papers supply).bind fun value => (validPath keys).map fun path => (value, path)

/-- The documents after a call that goes well; none where a document does not admit it. -/
def edited (papers : ι → Option Json) : EditCall ι → Option (ι → Option Json)
  | .make slot value => some (Function.update papers slot (some value))
  | .drop slot => some (Function.update papers slot none)
  | .set slot keys supply =>
      (given papers keys supply).bind fun (value, path) =>
        if path = [] ∨ (placeOf (papers slot) path).isOk then
          some (Function.update (Editing.emptied (supply.handed slot) papers) slot
            (some (assignedTree objects (supply.itself slot) (papers slot) path value)))
        else none
  | .append slot keys supply =>
      (given papers keys supply).bind fun (value, path) =>
        match papers slot, Json.findPath (papers slot) path with
        | some tree, some (.array _) =>
            some (Function.update (Editing.emptied (supply.handed slot) papers) slot
              (some (Json.modifyAt path (pushItem value) tree)))
        | _, _ => none
  | .erase slot index =>
      match papers slot with
      | some (.array items) =>
          if index < items.length then
            some (Function.update papers slot (some (.array (items.eraseIdx index))))
          else none
      | _ => none

/-- What a call that a document does not admit answers. -/
def EditCall.refusal : EditCall ι → Salts
  | .erase _ _ => .enoent
  | _ => .einval

/-- A call does what it does to values, or it changes nothing: because the document does not admit
it, or because the library failed. -/
inductive Edits (papers : ι → Option Json) (request : List Bool × EditCall ι) :
    Option Salts → (ι → Option Json) → Prop
  | done {next : ι → Option Json} (hnext : edited objects papers request.2 = some next) :
      Edits papers request (some .ok) next
  | refused (hnone : edited objects papers request.2 = none) :
      Edits papers request (some request.2.refusal) papers
  | failed {code : Salts} (hnext : edited objects papers request.2 ≠ none)
      (hdue : true ∈ request.1) (hcode : code ≠ .ok) : Edits papers request (some code) papers

end Papers

/-! ## The variables own the trees -/

/-- Every variable holds a tree of its own, and every tree is held. -/
structure Keeps (slots : ι → Option Nat) (trees : Nat → Option Json) : Prop where
  live : ∀ slot handle, slots slot = some handle → trees handle ≠ none
  apart : ∀ first second handle, slots first = some handle → slots second = some handle →
    first = second
  held : ∀ handle, trees handle ≠ none → ∃ slot, slots slot = some handle

/-- The documents of the variables. -/
def documents (slots : ι → Option Nat) (trees : Nat → Option Json) (slot : ι) : Option Json :=
  (slots slot).bind trees

namespace Keeps

variable {slots : ι → Option Nat} {trees : Nat → Option Json}

/-- A variable is emptied with its tree. -/
theorem drop (hkeeps : Keeps slots trees) (slot : ι) :
    Keeps (Function.update slots slot none) (cleared (slots slot) trees) := by
  have hother : ∀ other handle, Function.update slots slot none other = some handle →
      other ≠ slot ∧ slots other = some handle ∧ slots slot ≠ some handle := by
    intro other handle hslot
    by_cases hsame : other = slot
    · rw [hsame, Function.update_self] at hslot
      cases hslot
    · rw [Function.update_of_ne hsame] at hslot
      exact ⟨hsame, hslot, fun hheld => hsame (hkeeps.apart other slot handle hslot hheld)⟩
  refine ⟨fun other handle hslot => ?_, fun first second handle hfirst hsecond => ?_,
    fun handle htree => ?_⟩
  · obtain ⟨-, hheld, hne⟩ := hother other handle hslot
    rw [cleared_of_ne hne]
    exact hkeeps.live other handle hheld
  · exact hkeeps.apart first second handle (hother first handle hfirst).2.1
      (hother second handle hsecond).2.1
  · rw [cleared_apply] at htree
    split at htree
    · exact absurd rfl htree
    · rename_i hne
      obtain ⟨other, hheld⟩ := hkeeps.held handle htree
      have hother : other ≠ slot := by
        rintro rfl
        exact hne hheld
      exact ⟨other, by rw [Function.update_of_ne hother, hheld]⟩

theorem documents_drop (hkeeps : Keeps slots trees) (slot : ι) :
    documents (Function.update slots slot none) (cleared (slots slot) trees) =
      Function.update (documents slots trees) slot none := by
  funext other
  unfold documents
  by_cases hsame : other = slot
  · rw [hsame, Function.update_self, Function.update_self]
    rfl
  · rw [Function.update_of_ne hsame, Function.update_of_ne hsame]
    cases hheld : slots other with
    | none => rfl
    | some handle =>
        rw [Option.bind_some, Option.bind_some]
        exact cleared_of_ne fun hslot => hsame (hkeeps.apart other slot handle hheld hslot)

/-- A new tree is put in a variable that is empty. -/
theorem put (hkeeps : Keeps slots trees) {slot : ι} {handle : Nat} (hslot : slots slot = none)
    (hfree : trees handle = none) (tree : Json) :
    Keeps (Function.update slots slot (some handle))
      (Function.update trees handle (some tree)) := by
  have hcases : ∀ other held, Function.update slots slot (some handle) other = some held →
      other = slot ∧ held = handle ∨ other ≠ slot ∧ held ≠ handle ∧ slots other = some held := by
    intro other held hheld
    by_cases hsame : other = slot
    · rw [hsame, Function.update_self] at hheld
      exact .inl ⟨hsame, (Option.some.inj hheld).symm⟩
    · rw [Function.update_of_ne hsame] at hheld
      exact .inr ⟨hsame, fun heq => hkeeps.live other held hheld (heq ▸ hfree), hheld⟩
  refine ⟨fun other held hheld => ?_, fun first second held hfirst hsecond => ?_,
    fun held htree => ?_⟩
  · rcases hcases other held hheld with ⟨-, rfl⟩ | ⟨-, hne, hheld⟩
    · rw [Function.update_self]
      exact Option.some_ne_none tree
    · rw [Function.update_of_ne hne]
      exact hkeeps.live other held hheld
  · rcases hcases first held hfirst with ⟨rfl, rfl⟩ | ⟨-, hne, hheld⟩ <;>
      rcases hcases second held hsecond with ⟨hsame, heq⟩ | ⟨-, hother, hheld'⟩
    · exact hsame.symm
    · exact absurd rfl hother
    · exact absurd heq hne
    · exact hkeeps.apart first second held hheld hheld'
  · by_cases hsame : held = handle
    · exact ⟨slot, by rw [hsame, Function.update_self]⟩
    · rw [Function.update_of_ne hsame] at htree
      obtain ⟨other, hheld⟩ := hkeeps.held held htree
      have hother : other ≠ slot := by
        rintro rfl
        rw [hslot] at hheld
        cases hheld
      exact ⟨other, by rw [Function.update_of_ne hother, hheld]⟩

theorem documents_put (hkeeps : Keeps slots trees) (slot : ι) {handle : Nat}
    (hfree : trees handle = none) (tree : Json) :
    documents (Function.update slots slot (some handle))
        (Function.update trees handle (some tree)) =
      Function.update (documents slots trees) slot (some tree) := by
  funext other
  unfold documents
  by_cases hsame : other = slot
  · rw [hsame, Function.update_self, Function.update_self, Option.bind_some, Function.update_self]
  · rw [Function.update_of_ne hsame, Function.update_of_ne hsame]
    cases hheld : slots other with
    | none => rfl
    | some held =>
        rw [Option.bind_some, Option.bind_some]
        have hne : held ≠ handle := by
          rintro rfl
          exact hkeeps.live other held hheld hfree
        exact Function.update_of_ne hne _ _

/-- Where a variable is handed over it is emptied, and else nothing is. -/
theorem hand (hkeeps : Keeps slots trees) (handed : Option ι) :
    Keeps (Editing.emptied handed slots) (cleared (handed.bind slots) trees) ∧
      documents (Editing.emptied handed slots) (cleared (handed.bind slots) trees) =
        Editing.emptied handed (documents slots trees) := by
  cases handed with
  | none => exact ⟨hkeeps, rfl⟩
  | some source => exact ⟨hkeeps.drop source, hkeeps.documents_drop source⟩

end Keeps

/-! ## What a call leaves -/

section Steps

variable (objects : JsonObjects) {s : Editing ι} {slot : ι} {handed : Option ι} {outcome : Assigned}

def Editing.documents (s : Editing ι) : ι → Option Json :=
  Documents.documents s.slots s.forest.trees

/-- The variables own the trees, and no handle is given out twice. -/
structure Editing.Sound (s : Editing ι) : Prop where
  keeps : Keeps s.slots s.forest.trees
  fresh : ∀ handle, s.forest.next ≤ handle → s.forest.trees handle = none

/-- The variables that a call is given. -/
def Editing.holders (s : Editing ι) (slot : ι) (handed : Option ι) : Holders :=
  ⟨s.slots slot, handed.bind s.slots⟩

/-- A call changes nothing. -/
def Editing.Unchanged (s : Editing ι) (slot : ι) (handed : Option ι) (outcome : Assigned) : Prop :=
  (s.written slot handed outcome).Sound ∧ (s.written slot handed outcome).documents = s.documents

/-- A call changes the document, and it empties the variable that is handed over. -/
def Editing.Changed (s : Editing ι) (slot : ι) (handed : Option ι) (tree : Json)
    (outcome : Assigned) : Prop :=
  (s.written slot handed outcome).Sound ∧ (s.written slot handed outcome).documents =
    Function.update (Editing.emptied handed s.documents) slot (some tree)

theorem Editing.Sound.unchanged (hsound : s.Sound) (slot : ι) (handed : Option ι) (code : Salts)
    (error : Option String) {forest : Forest} (howns : Owns s.forest.trees forest) :
    s.Unchanged slot handed ⟨code, error, s.holders slot handed, forest⟩ := by
  have hslots : (s.written slot handed ⟨code, error, s.holders slot handed, forest⟩).slots =
      s.slots := by
    unfold Editing.written Editing.holders
    cases handed with
    | none => exact Function.update_eq_self slot s.slots
    | some source =>
        dsimp only
        rw [Option.bind_some, Function.update_eq_self, Function.update_eq_self]
  have htrees : (s.written slot handed ⟨code, error, s.holders slot handed, forest⟩).forest.trees =
      s.forest.trees := howns.holds
  refine ⟨⟨?_, howns.holds ▸ howns.fresh⟩, ?_⟩
  · rw [hslots, htrees]
    exact hsound.keeps
  · unfold Editing.documents
    rw [hslots, htrees]

theorem update_emptied {α : Type*} (hne : handed ≠ some slot) (papers : ι → Option α)
    (value : Option α) :
    Function.update (Editing.emptied handed (Function.update papers slot none)) slot value =
      Function.update (Editing.emptied handed papers) slot value := by
  cases handed with
  | none => exact Function.update_idem ..
  | some source =>
      have hsource : source ≠ slot := fun hsame => hne (congrArg some hsame)
      unfold Editing.emptied
      dsimp only
      rw [Function.update_comm hsource, Function.update_idem, Function.update_comm hsource.symm]

theorem Editing.Sound.assigned (hsound : s.Sound) (hne : handed ≠ some slot) {root : Nat}
    {taken : Option Nat} {forest : Forest} {tree : Json}
    (hnew : s.forest.trees root = none ∨ s.slots slot = some root ∨
      handed.bind s.slots = some root)
    (htaken : handed ≠ none → taken = none)
    (howns : Owns (Function.update (cleared (handed.bind s.slots)
      (cleared (s.slots slot) s.forest.trees)) root (some tree)) forest) :
    s.Changed slot handed tree ⟨.ok, none, ⟨some root, taken⟩, forest⟩ := by
  have hbind : handed.bind (Function.update s.slots slot none) = handed.bind s.slots := by
    cases handed with
    | none => rfl
    | some source => exact Function.update_of_ne (fun hsame => hne (congrArg some hsame)) _ _
  have hkeeps := hsound.keeps.drop slot
  have hdocuments := hsound.keeps.documents_drop slot
  obtain ⟨hkeepsHand, hdocumentsHand⟩ := hkeeps.hand handed
  rw [hdocuments] at hdocumentsHand
  rw [hbind] at hkeepsHand hdocumentsHand
  have hslot : Editing.emptied handed (Function.update s.slots slot none) slot = none := by
    cases handed with
    | none => exact Function.update_self ..
    | some source =>
        unfold Editing.emptied
        dsimp only
        rw [Function.update_of_ne fun hsame => hne (congrArg some hsame.symm), Function.update_self]
  have hfree : cleared (handed.bind s.slots) (cleared (s.slots slot) s.forest.trees) root = none := by
    rw [cleared_apply, cleared_apply]
    rcases hnew with hnew | hnew | hnew
    · rw [hnew, ite_self, ite_self]
    · rw [if_pos hnew, ite_self]
    · rw [if_pos hnew]
  have hput := hkeepsHand.put hslot hfree tree
  have hdocumentsPut := hkeepsHand.documents_put slot hfree tree
  rw [hdocumentsHand] at hdocumentsPut
  rw [update_emptied hne] at hput hdocumentsPut
  rw [update_emptied hne] at hdocumentsPut
  have hslots : (s.written slot handed ⟨.ok, none, ⟨some root, taken⟩, forest⟩).slots =
      Function.update (Editing.emptied handed s.slots) slot (some root) := by
    unfold Editing.written
    cases handed with
    | none => rfl
    | some source =>
        obtain rfl := htaken (Option.some_ne_none source)
        rfl
  have htrees : (s.written slot handed ⟨.ok, none, ⟨some root, taken⟩, forest⟩).forest.trees =
      Function.update (cleared (handed.bind s.slots) (cleared (s.slots slot) s.forest.trees)) root
        (some tree) := howns.holds
  refine ⟨⟨?_, howns.holds ▸ howns.fresh⟩, ?_⟩
  · rw [hslots, htrees]
    exact hput
  · unfold Editing.documents
    rw [hslots, htrees]
    exact hdocumentsPut

/-- What an assignment comes to for the caller. -/
theorem Editing.Sound.settled (hsound : s.Sound) (hne : handed ≠ some slot) {taking : Taking}
    (htaking : taking = .other ↔ handed ≠ none) {tree : Json}
    (hsettled : Settled s.forest.trees (s.holders slot handed) taking tree outcome) :
    outcome.code ≠ .ok ∧ s.Unchanged slot handed outcome ∨
      outcome.code = .ok ∧ s.Changed slot handed tree outcome := by
  cases hsettled with
  | refused hcode howns => exact .inl ⟨hcode, hsound.unchanged _ _ _ _ howns⟩
  | assigned hnew htaken howns =>
      rename_i root taken forest
      have hgone : (if taking = .other then (s.holders slot handed).taken else none) =
          handed.bind s.slots := by
        by_cases hother : taking = .other
        · rw [if_pos hother]
          rfl
        · obtain rfl : handed = none := by
            by_contra hhanded
            exact hother (htaking.mpr hhanded)
          rw [if_neg hother]
          rfl
      rw [hgone] at howns
      refine .inr ⟨rfl, hsound.assigned hne hnew (fun hhanded => ?_) howns⟩
      rw [htaken, if_pos (htaking.mpr hhanded)]

end Steps

/-! ## What a call answers -/

section Answers

variable (objects : JsonObjects) {s : Editing ι} {slot : ι} {supply : Supply ι}
  {keys : List (Option Bytes)} {value : Json} {failures : List Bool}

theorem Supply.handed_ne (slot : ι) (supply : Supply ι) : supply.handed slot ≠ some slot := by
  cases supply with
  | copy origin path => exact Option.some_ne_none slot |>.symm
  | take source =>
      unfold Supply.handed
      dsimp only
      split
      · exact (Option.some_ne_none slot).symm
      · rename_i hother
        exact fun hsame => hother (Option.some.inj hsame)

theorem Supply.taking_iff (slot : ι) (supply : Supply ι) :
    supply.taking slot = .other ↔ supply.handed slot ≠ none := by
  cases supply with
  | copy origin path => simp [Supply.taking, Supply.handed]
  | take source => by_cases hsame : source = slot <;> simp [Supply.taking, Supply.handed, hsame]

theorem Editing.set_eq (s : Editing ι) (slot : ι) (keys : List (Option Bytes)) (supply : Supply ι)
    (forest : Forest) : s.set objects slot keys supply forest =
      setValue objects 2 keys (s.ref supply) (supply.taking slot)
        (s.holders slot (supply.handed slot)) forest := by
  cases supply with
  | copy origin path => rfl
  | take source =>
      by_cases hsame : source = slot
      · subst hsame
        simp [Editing.set, Supply.taking, Supply.handed, Editing.holders, praktorValueSetTakeRoot,
          Editing.ref]
      · simp [Editing.set, Supply.taking, Supply.handed, Editing.holders, praktorValueSetTake,
          Editing.ref, hsame]

theorem Editing.append_eq (s : Editing ι) (slot : ι) (keys : List (Option Bytes))
    (supply : Supply ι) (forest : Forest) : s.append slot keys supply forest =
      appendValue keys (s.ref supply) (supply.taking slot)
        (s.holders slot (supply.handed slot)) forest := by
  cases supply with
  | copy origin path => rfl
  | take source =>
      by_cases hsame : source = slot
      · subst hsame
        simp [Editing.append, Supply.taking, Supply.handed, Editing.holders,
          praktorValueAppendTakeRoot, Editing.ref]
      · simp [Editing.append, Supply.taking, Supply.handed, Editing.holders,
          praktorValueAppendTake, Editing.ref, hsame]

omit [DecidableEq ι] in
theorem Editing.Sound.held (hsound : s.Sound) {handed : Option ι} (hne : handed ≠ some slot) :
    Held s.forest.trees (s.holders slot handed) := by
  refine ⟨fun handle hroot => hsound.keeps.live slot handle hroot, fun handle htaken => ?_,
    fun handle hroot htaken => ?_⟩
  · obtain ⟨source, -, hsource⟩ := Option.bind_eq_some_iff.mp htaken
    exact hsound.keeps.live source handle hsource
  · obtain ⟨source, hhanded, hsource⟩ := Option.bind_eq_some_iff.mp htaken
    rw [hhanded, hsound.keeps.apart source slot handle hsource hroot] at hne
    exact hne rfl

omit [DecidableEq ι] in
theorem Editing.Sound.owns (hsound : s.Sound) (failures : List Bool) :
    Owns s.forest.trees (s.due failures) := ⟨rfl, hsound.fresh⟩

/-- What a supply is for the call. -/
theorem Editing.Sound.sourced (hsound : s.Sound) (hvalue : supplied s.documents supply = some value) :
    ∃ source, s.ref supply = some source ∧
      Sourced s.forest.trees (s.holders slot (supply.handed slot)) (supply.taking slot) source value ∧
      itself source (s.holders slot (supply.handed slot)) = supply.itself slot := by
  cases supply with
  | copy origin path =>
      unfold supplied Editing.documents Documents.documents at hvalue
      dsimp only at hvalue
      cases hslot : s.slots origin with
      | none =>
          rw [hslot, Option.bind_none, Json.findPath_none] at hvalue
          cases hvalue
      | some tree =>
          rw [hslot, Option.bind_some] at hvalue
          refine ⟨⟨tree, path⟩, ?_, ⟨hvalue, (fun hother => by cases hother),
            fun hroot => by cases hroot⟩, ?_⟩
          · unfold Editing.ref
            dsimp only
            rw [hslot, Option.bind_some, hvalue]
            rfl
          · refine decide_eq_decide.mpr (and_congr_left fun _ => ⟨fun hroot => ?_, fun hsame => ?_⟩)
            · exact hsound.keeps.apart origin slot tree hslot hroot
            · exact hsame ▸ hslot
  | take source =>
      obtain ⟨tree, hslot, htree⟩ := Option.bind_eq_some_iff.mp hvalue
      refine ⟨⟨tree, []⟩, by rw [Editing.ref, hslot]; rfl, ?_, ?_⟩
      · by_cases hsame : source = slot
        · subst hsame
          exact ⟨htree, fun hother => by simp [Supply.taking] at hother, fun _ => ⟨hslot, rfl⟩⟩
        · refine ⟨htree, fun _ => ⟨?_, rfl⟩, fun hroot => by simp [Supply.taking, hsame] at hroot⟩
          unfold Editing.holders Supply.handed
          dsimp only
          rw [if_neg hsame, Option.bind_some, hslot]
      · refine decide_eq_decide.mpr ⟨fun hroot => ?_, fun hsame => ⟨?_, rfl⟩⟩
        · exact hsound.keeps.apart source slot tree hslot hroot.1
        · exact hsame ▸ hslot

omit [DecidableEq ι] in
theorem Editing.Sound.unsourced (hsound : s.Sound) (hnone : supplied s.documents supply = none) :
    s.ref supply = none := by
  cases supply with
  | copy origin path =>
      unfold supplied Editing.documents Documents.documents at hnone
      dsimp only at hnone
      unfold Editing.ref
      dsimp only
      cases hslot : s.slots origin with
      | none => rfl
      | some tree =>
          rw [hslot, Option.bind_some] at hnone
          rw [Option.bind_some, hnone]
          rfl
  | take source =>
      unfold supplied Editing.documents Documents.documents at hnone
      dsimp only at hnone
      unfold Editing.ref
      dsimp only
      cases hslot : s.slots source with
      | none => rfl
      | some tree =>
          rw [hslot, Option.bind_some] at hnone
          exact absurd hnone (hsound.keeps.live source tree hslot)

/-- What a call is given: nothing that it can use, or a value and a path. -/
theorem Editing.Sound.given_cases (hsound : s.Sound) (slot : ι) (keys : List (Option Bytes))
    (supply : Supply ι) :
    (given s.documents keys supply = none ∧ (s.ref supply = none ∨ validPath keys = none)) ∨
      ∃ value path source, given s.documents keys supply = some (value, path) ∧
        s.ref supply = some source ∧ validPath keys = some path ∧
        Sourced s.forest.trees (s.holders slot (supply.handed slot)) (supply.taking slot) source
          value ∧ itself source (s.holders slot (supply.handed slot)) = supply.itself slot := by
  unfold given
  cases hvalue : supplied s.documents supply with
  | none => exact .inl ⟨rfl, .inl (hsound.unsourced hvalue)⟩
  | some value =>
      cases hvalid : validPath keys with
      | none => exact .inl ⟨rfl, .inr rfl⟩
      | some path =>
          obtain ⟨source, hsource, hsourced, hitself⟩ := hsound.sourced hvalue
          exact .inr ⟨value, path, source, rfl, hsource, rfl, hsourced, hitself⟩

/-- A call keeps the variables sound, and it answers as an edit of the documents. -/
def Editing.Serves (s : Editing ι) (request : List Bool × EditCall ι)
    (answer : Editing ι × Option Salts) : Prop :=
  answer.1.Sound ∧ Edits objects s.documents request answer.2 answer.1.documents

variable {objects} in
theorem Editing.Sound.serves (hsound : s.Sound) {handed : Option ι} (hne : handed ≠ some slot)
    {taking : Taking} (htaking : taking = .other ↔ handed ≠ none) {tree : Json}
    {outcome : Assigned} {call : EditCall ι}
    (hsettled : Settled s.forest.trees (s.holders slot handed) taking tree outcome)
    (hexcused : outcome.Excused (s.due failures))
    (hedited : edited objects s.documents call =
      some (Function.update (Editing.emptied handed s.documents) slot (some tree))) :
    s.Serves objects (failures, call) (s.answered slot handed (some outcome)) := by
  rcases hsound.settled hne htaking hsettled with ⟨hcode, hkept, hsame⟩ | ⟨hcode, hkept, hchanged⟩
  · refine ⟨hkept, ?_⟩
    show Edits objects s.documents (failures, call) (some outcome.code)
      (s.written slot handed outcome).documents
    rw [hsame]
    exact .failed (by rw [hedited]; exact Option.some_ne_none _) (hexcused hcode) hcode
  · refine ⟨hkept, ?_⟩
    show Edits objects s.documents (failures, call) (some outcome.code)
      (s.written slot handed outcome).documents
    rw [hchanged, hcode]
    exact .done hedited

variable {objects} in
theorem Editing.Sound.refuses (hsound : s.Sound) {handed : Option ι} {call : EditCall ι}
    (error : Option String) (hnone : edited objects s.documents call = none) :
    s.Serves objects (failures, call) (s.answered slot handed
      (some ⟨call.refusal, error, s.holders slot handed, s.due failures⟩)) := by
  obtain ⟨hkept, hsame⟩ := hsound.unchanged slot handed call.refusal error (hsound.owns failures)
  refine ⟨hkept, ?_⟩
  show Edits objects s.documents (failures, call) (some call.refusal)
    (s.written slot handed ⟨call.refusal, error, s.holders slot handed, s.due failures⟩).documents
  rw [hsame]
  exact .refused hnone

/-! ## Every call -/

theorem Editing.Sound.make (hsound : s.Sound) (slot : ι) (value : Json) (failures : List Bool) :
    s.Serves objects (failures, .make slot value) (s.serve objects (failures, .make slot value)) := by
  have howns := hsound.owns failures
  have hne : (none : Option ι) ≠ some slot := (Option.some_ne_none slot).symm
  have hlive : ∀ held, s.slots slot = some held → s.forest.trees held ≠ none :=
    hsound.keeps.live slot
  have hsettled : ∃ outcome, Editing.make value (s.slots slot) (s.due failures) =
      some outcome ∧ Settled s.forest.trees (s.holders slot none) .copy value outcome ∧
        outcome.Excused (s.due failures) := by
    unfold Editing.make
    rcases howns.allocate_cases value with ⟨asked, hasked, hownsAsked, hdue⟩ |
      ⟨handle, created, hcreated, hfree, hownsCreated, -⟩
    · rw [hasked]
      exact ⟨_, rfl, .refused (by decide) hownsAsked, fun _ => hdue⟩
    · have hroot : s.slots slot ≠ some handle := fun hsame => hlive handle hsame hfree
      have hlives : ∀ held, s.slots slot = some held →
          Function.update s.forest.trees handle (some value) held ≠ none := by
        intro held hsame
        have hother : held ≠ handle := by
          rintro rfl
          exact hroot hsame
        rw [Function.update_of_ne hother]
        exact hlive held hsame
      obtain ⟨freed, hfreed, hownsFreed⟩ := hownsCreated.clear hlives
      rw [cleared_update hroot] at hownsFreed
      rw [hcreated]
      dsimp only
      rw [hfreed]
      exact ⟨_, rfl, .assigned (.inl hfree) rfl hownsFreed, fun hcode => absurd rfl hcode⟩
  obtain ⟨outcome, houtcome, hsettled, hexcused⟩ := hsettled
  show s.Serves objects _ (s.answered slot none (Editing.make value (s.slots slot) _))
  rw [houtcome]
  exact hsound.serves hne (by simp) hsettled hexcused rfl

theorem Editing.Sound.drop (hsound : s.Sound) (slot : ι) (failures : List Bool) :
    s.Serves objects (failures, .drop slot) (s.serve objects (failures, .drop slot)) := by
  obtain ⟨freed, hfreed, howns⟩ := (hsound.owns failures).clear (hsound.keeps.live slot)
  have hkeeps := hsound.keeps.drop slot
  have hdocuments := hsound.keeps.documents_drop slot
  rw [← howns.holds] at hkeeps hdocuments
  have hanswer : s.serve objects (failures, .drop slot) =
      (⟨Function.update s.slots slot none, freed⟩, some .ok) := by
    show s.answered slot none (Option.map _ (Forest.release (s.slots slot) _)) = _
    rw [hfreed]
    rfl
  rw [hanswer]
  refine ⟨⟨hkeeps, howns.holds ▸ howns.fresh⟩, ?_⟩
  show Edits objects s.documents _ _ (Documents.documents _ _)
  rw [hdocuments]
  exact .done rfl

theorem Editing.Sound.set (hsound : s.Sound) (slot : ι) (keys : List (Option Bytes))
    (supply : Supply ι) (failures : List Bool) :
    s.Serves objects (failures, .set slot keys supply)
      (s.serve objects (failures, .set slot keys supply)) := by
  have hne := Supply.handed_ne slot supply
  have howns := hsound.owns failures
  show s.Serves objects _ (s.answered slot _ (s.set objects slot keys supply _))
  rw [Editing.set_eq]
  rcases hsound.given_cases slot keys supply with ⟨hgiven, hinvalid⟩ |
    ⟨value, path, source, hgiven, hsource, hvalid, hsourced, hitself⟩
  · rw [setValue_invalid objects hinvalid]
    exact hsound.refuses _ (by rw [edited, hgiven]; rfl)
  rw [hsource]
  by_cases hadmits : path = [] ∨ (placeOf (s.documents slot) path).isOk
  · obtain ⟨outcome, houtcome, hsettled⟩ := setValue_settled objects (hsound.held hne) howns
      hsourced hvalid
    have hplace : path = [] ∨ ∃ place, placeOf (s.documents slot) path = .ok place := by
      refine hadmits.imp id fun hok => ?_
      cases hplace : placeOf (s.documents slot) path with
      | error text =>
          rw [hplace] at hok
          cases hok
      | ok place => exact ⟨place, rfl⟩
    have hexcused : outcome.Excused (s.due failures) := by
      intro hcode
      by_contra hquiet
      exact hcode (setValue_calm objects howns hsourced hvalid hplace hquiet houtcome).1
    rw [hitself] at hsettled
    rw [houtcome]
    refine hsound.serves hne (Supply.taking_iff slot supply) hsettled hexcused ?_
    rw [edited, hgiven]
    exact if_pos hadmits
  · obtain ⟨hpath, hplace⟩ := not_or.mp hadmits
    cases hmisplaced : placeOf (s.documents slot) path with
    | ok place =>
        rw [hmisplaced] at hplace
        exact absurd rfl hplace
    | error text =>
        have hroot : placeOf ((s.holders slot (supply.handed slot)).root.bind
            (s.due failures).trees) path = .error text := hmisplaced
        rw [setValue_misplaced objects hvalid hpath hroot]
        refine hsound.refuses _ ?_
        rw [edited, hgiven]
        exact if_neg hadmits

theorem Editing.Sound.append (hsound : s.Sound) (slot : ι) (keys : List (Option Bytes))
    (supply : Supply ι) (failures : List Bool) :
    s.Serves objects (failures, .append slot keys supply)
      (s.serve objects (failures, .append slot keys supply)) := by
  have hne := Supply.handed_ne slot supply
  have howns := hsound.owns failures
  show s.Serves objects _ (s.answered slot _ (s.append slot keys supply _))
  rw [Editing.append_eq]
  rcases hsound.given_cases slot keys supply with ⟨hgiven, hinvalid⟩ |
    ⟨value, path, source, hgiven, hsource, hvalid, hsourced, -⟩
  · rw [appendValue_invalid hinvalid]
    exact hsound.refuses _ (by rw [edited, hgiven]; rfl)
  rw [hsource]
  by_cases harray : ∃ tree items, s.documents slot = some tree ∧
      Json.findPath (some tree) path = some (.array items)
  · obtain ⟨tree, items, htree, hitems⟩ := harray
    obtain ⟨outcome, houtcome, hsettled, hexcused⟩ := appendValue_settled (hsound.held hne) howns
      hsourced hvalid htree hitems
    rw [houtcome]
    refine hsound.serves hne (Supply.taking_iff slot supply) hsettled hexcused ?_
    rw [edited, hgiven, Option.bind_some]
    dsimp only
    rw [htree, hitems]
  · have hmissing : ∀ tree items, (s.holders slot (supply.handed slot)).root.bind
        (s.due failures).trees = some tree → Json.findPath (some tree) path ≠ some (.array items) :=
      fun tree items htree hitems => harray ⟨tree, items, htree, hitems⟩
    rw [appendValue_misplaced hvalid hmissing]
    refine hsound.refuses _ ?_
    rw [edited, hgiven, Option.bind_some]
    dsimp only
    split
    · rename_i tree items htree hitems
      rw [htree] at hitems
      exact absurd ⟨tree, items, htree, hitems⟩ harray
    · rfl

theorem Editing.Sound.erase (hsound : s.Sound) (slot : ι) (index : Nat) (failures : List Bool) :
    s.Serves objects (failures, .erase slot index)
      (s.serve objects (failures, .erase slot index)) := by
  have hne : (none : Option ι) ≠ some slot := (Option.some_ne_none slot).symm
  have howns := hsound.owns failures
  show s.Serves objects _ (s.answered slot none (praktorValueErase index (s.slots slot) _))
  by_cases hthere : ∃ items, s.documents slot = some (.array items) ∧ index < items.length
  · obtain ⟨items, hitems, hindex⟩ := hthere
    obtain ⟨outcome, houtcome, hsettled, hexcused⟩ := praktorValueErase_settled
      (hsound.keeps.live slot) howns hitems hindex
    rw [houtcome]
    refine hsound.serves hne (by simp) hsettled hexcused ?_
    unfold edited
    dsimp only
    rw [hitems]
    exact if_pos hindex
  · have hmissing : ∀ items, (s.slots slot).bind (s.due failures).trees = some (.array items) →
        items.length ≤ index :=
      fun items hitems => Nat.not_lt.mp fun hindex => hthere ⟨items, hitems, hindex⟩
    rw [praktorValueErase_missing hmissing]
    refine hsound.refuses _ ?_
    unfold edited
    dsimp only
    split
    · rename_i items hitems
      exact if_neg fun hindex => hthere ⟨items, hitems, hindex⟩
    · rfl

theorem Editing.Sound.serve (hsound : s.Sound) (request : List Bool × EditCall ι) :
    s.Serves objects request (s.serve objects request) := by
  obtain ⟨failures, call⟩ := request
  cases call with
  | make slot value => exact hsound.make objects slot value failures
  | drop slot => exact hsound.drop objects slot failures
  | set slot keys supply => exact hsound.set objects slot keys supply failures
  | append slot keys supply => exact hsound.append objects slot keys supply failures
  | erase slot index => exact hsound.erase objects slot index failures

/-! ## Runs -/

/-- A caller without documents. -/
def Editing.start : Editing ι := ⟨fun _ => none, ⟨fun _ => none, 0, []⟩⟩

omit [DecidableEq ι] in
theorem Editing.start_sound : (Editing.start : Editing ι).Sound :=
  ⟨⟨fun _ _ hslot => (by cases hslot), fun _ _ _ hslot => (by cases hslot),
    fun _ htree => absurd rfl htree⟩, fun _ _ => rfl⟩

open Math in
/-- In every run of edits, whichever calls of the library fail in it, the documents are edited as
values, and in the end every tree is held by one variable. -/
theorem editing_refines (requests : List (List Bool × EditCall ι)) :
    Trace (Edits objects) (fun _ : ι => none)
        ((moments (Editing.serve objects) Editing.start requests).map (Moment.seen Editing.documents))
        (reached (Editing.serve objects) Editing.start requests).documents ∧
      Keeps (reached (Editing.serve objects) Editing.start requests).slots
        (reached (Editing.serve objects) Editing.start requests).forest.trees := by
  have hkeeps : ∀ s : Editing ι, ∀ request, s.Sound → (s.serve objects request).1.Sound :=
    fun s request hsound => (hsound.serve objects request).1
  exact ⟨moments_refine hkeeps (fun s request hsound => (hsound.serve objects request).2)
    Editing.start_sound requests, (reached_holds hkeeps Editing.start_sound requests).keeps⟩

end Answers

end Praktor.Documents
