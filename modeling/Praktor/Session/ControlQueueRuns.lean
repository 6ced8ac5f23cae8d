/-
# Runs of the queues of a session

A queue that only queue nodes write under its key gives its items in their order.  Along every run,
what was drawn and what is left are the items that were there, nothing is given twice, and an item
that a node does not get is drawn by a begin that failed.
-/

import Praktor.Session.ControlRuns

namespace Praktor.Session

open Praktor.Data Praktor.Math Praktor.Native
open Praktor.Runtime (NodeStatus)

variable {Store Number : Type} {count : Nat}

/-! ## Queues -/

/-- The items of the queue under a key. -/
def queueOf (library : QueueLibrary) (values : CString → Option Bytes) (key : CString) : List Json :=
  match (values key).bind library.parse with
  | some (.array items) => items
  | _ => []

/-- What a call draws from the queue under a key. -/
def drawn (library : QueueLibrary) (key : CString)
    (m : ControlMoment (Controls count) Store count) : List Json :=
  match m.request.2 with
  | .queueBegin _ =>
      if m.after.values key = m.before.values key then []
      else (queueOf library m.before.values key).take 1
  | _ => []

/-- No control but a queue node writes under a key: it is not the input of the pipelines, and no
node names it for its result or its item. -/
structure QueueKey (numbers : ControlNumbers Number) (session : PlannedSession Number count)
    (key : CString) : Prop where
  input : key ≠ inputKey
  outputs : ∀ values node, namedKey numbers.toSessionNumbers session.toSessionImpl values node
    "output_key" (some "pipeline_result") ≠ some key
  items : ∀ values node, namedKey numbers.toSessionNumbers session.toSessionImpl values node
    "item_key" (some "current_item") ≠ some key

/-- No pipeline that runs is to write its result under a key. -/
def Controls.Spares (c : Controls count) (key : CString) : Prop :=
  ∀ node flow, c.flow node = some flow → flow.key ≠ key

section Steps

variable {numbers : ControlNumbers Number} {session : PlannedSession Number count}
  {library : QueueLibrary} {view : Store → CString → Option Bytes} {c next : Controls count}
  {key : CString}

theorem queuedItems_eq_some {item : Json} {rest : List Json} :
    queuedItems library c key = some (item, rest) ↔ queueOf library c.values key = item :: rest := by
  unfold queuedItems queueOf
  constructor
  · intro hitems
    split at hitems
    next first others hparse =>
      obtain ⟨rfl, rfl⟩ := Prod.mk.inj (Option.some.inj hitems)
      rw [hparse]
    next => cases hitems
  · intro hitems
    split at hitems
    next items hparse =>
      rw [hparse, hitems]
    next => cases hitems

/-- The result key of a pipeline that begins is named by its node. -/
theorem Controls.captured_key {node : Fin count} {flow : Flow}
    (hcaptured : c.captured session numbers.toSessionNumbers node = some flow) :
    namedKey numbers.toSessionNumbers session.toSessionImpl c.values node "output_key"
      (some "pipeline_result") = some flow.key := by
  obtain ⟨named, hnamed, hrest⟩ := Option.bind_eq_some_iff.mp hcaptured
  obtain ⟨input, -, hsome⟩ := Option.bind_eq_some_iff.mp hrest
  rw [hnamed, ← Option.some.inj hsome]

/-! ### Results that go elsewhere -/

section Spared

variable {node : Fin count}

theorem Controls.Spares.restored (hspares : c.Spares key) : (c.restored session node).Spares key := by
  intro other flow hflow
  rcases Controls.restored_flow session c node other with hsame | ⟨before, restored, hbefore, hsome⟩
  · exact hspares other flow (hsame.symm.trans hflow)
  · rw [hflow] at hsome
    rw [Option.some.inj hsome]
    exact hspares other before hbefore

theorem Controls.Spares.setFlow {flow : Option Flow} (hspares : c.Spares key)
    (hflow : ∀ set, flow = some set → set.key ≠ key) : (c.setFlow node flow).Spares key := by
  intro other found hfound
  rw [Controls.setFlow_apply] at hfound
  split at hfound
  next => exact hflow found hfound
  next => exact hspares other found hfound

theorem Controls.Spares.ended (hspares : c.Spares key) : (c.setFlow node none).Spares key :=
  hspares.setFlow fun _ hset => by cases hset

/-- A pipeline that runs or begins. -/
theorem Controls.Spares.flowAt {flow : Flow} (hqueue : QueueKey numbers session key)
    (hspares : c.Spares key) (hat : c.flowAt session numbers.toSessionNumbers node = some flow) :
    flow.key ≠ key := by
  unfold Controls.flowAt at hat
  cases hflow : c.flow node with
  | some before =>
      rw [hflow, Option.some_or] at hat
      obtain rfl := Option.some.inj hat
      exact hspares node before hflow
  | none =>
      rw [hflow, Option.none_or] at hat
      rintro rfl
      exact hqueue.outputs c.values node (Controls.captured_key hat)

/-- A pipeline that goes on to another child. -/
theorem Controls.Spares.prepared {flow : Flow} {child : Nat} (hqueue : QueueKey numbers session key)
    (hspares : c.Spares key)
    (hat : (c.restored session node).flowAt session numbers.toSessionNumbers node = some flow) :
    ((c.restored session node).setFlow node (some { flow with child })).Spares key := by
  have hkey : flow.key ≠ key := hspares.restored.flowAt hqueue hat
  refine hspares.restored.setFlow fun set hset => ?_
  rw [← Option.some.inj hset]
  exact hkey

end Spared

/-- No call makes a pipeline write under the key of a queue. -/
theorem Answers.spares {call : List Fresh × ControlCall Store count}
    {answer : Except Salts ControlReply} (hqueue : QueueKey numbers session key)
    (hanswers : Answers numbers session library view c call answer next) (hspares : c.Spares key) :
    next.Spares key := by
  obtain ⟨fresh, call⟩ := call
  cases answer with
  | error code =>
      cases hanswers with
      | nothing => exact hspares
      | renewed hcall => exact hspares.restored
      | prepared hat => exact hspares.prepared hqueue hat
      | completed hlast => exact hspares.ended
      | begun node => exact hspares.restored
      | dequeued hkey hitems => exact hspares.restored
  | ok reply =>
      cases perform_cases hanswers with
      | ticked => exact hspares
      | restored node => exact hspares.restored
      | decided node => exact hspares.restored
      | selected node => exact hspares.restored
      | prepared child hat => exact hspares.prepared hqueue hat
      | failed node child => exact hspares.ended
      | handed hflow hmore =>
          have hkey := hspares _ _ hflow
          refine hspares.setFlow fun set hset => ?_
          rw [← Option.some.inj hset]
          exact hkey
      | finished hflow hlast => exact hspares.ended
      | aborted node => exact hspares.ended
      | observed hkey => exact hspares.restored
      | drained hkey hitems => exact hspares.restored
      | taken hkey hitemKey hitems => exact hspares.restored
      | dequeued hqueue => exact hspares
      | returned node => exact hspares
      | cleared => exact fun node flow hflow => by cases hflow
      | processed request own => exact hspares
      | changed store => exact hspares

/-! ### What is drawn -/

/-- A call that a queue node begins with draws the first item, and every other call leaves the
queue. -/
theorem Answers.values_eq {call : List Fresh × ControlCall Store count}
    {answer : Except Salts ControlReply} (hqueue : QueueKey numbers session key)
    (hanswers : Answers numbers session library view c call answer next) (hspares : c.Spares key)
    (hchange : ∀ store, call.2 = .change store → next.values key = c.values key) :
    next.values key = c.values key ∨ ∃ node item rest, call.2 = .queueBegin node ∧
      queueOf library c.values key = item :: rest ∧
      next.values key = some (library.serialize (.array rest)) := by
  have hrestored : ∀ node, (c.restored session node).values key = c.values key :=
    fun node => Controls.restored_values session c node hqueue.input
  have hput : ∀ {other : CString} {text : Bytes} {state : Controls count}, key ≠ other →
      (state.put other text).values key = state.values key :=
    fun hother => Function.update_of_ne hother _ _
  have hcut : ∀ {node : Fin count} {other : CString} {item : Json} {rest : List Json},
      queuedItems library (c.restored session node) other = some (item, rest) → other = key →
      queueOf library c.values key = item :: rest := by
    rintro node other item rest hitems rfl
    have hitems' := queuedItems_eq_some.mp hitems
    unfold queueOf at hitems' ⊢
    rw [hrestored] at hitems'
    exact hitems'
  obtain ⟨fresh, call⟩ := call
  cases answer with
  | error code =>
      cases hanswers with
      | nothing => exact .inl rfl
      | renewed hcall => exact .inl (hrestored _)
      | prepared hat => exact .inl (hrestored _)
      | completed hlast => exact .inl rfl
      | begun node => exact .inl (hrestored node)
      | dequeued hkey hitems =>
          rename_i node other item rest
          by_cases hother : other = key
          · refine .inr ⟨node, item, rest, rfl, hcut hitems hother, ?_⟩
            rw [hother]
            exact Controls.put_values _ _ _
          · exact .inl ((hput (Ne.symm hother)).trans (hrestored node))
  | ok reply =>
      cases perform_cases hanswers with
      | ticked => exact .inl rfl
      | restored node => exact .inl (hrestored node)
      | decided node => exact .inl (hrestored node)
      | selected node => exact .inl (hrestored node)
      | prepared child hat => exact .inl ((hput hqueue.input).trans (hrestored _))
      | failed node child => exact .inl rfl
      | handed hflow hmore => exact .inl rfl
      | finished hflow hlast => exact .inl (hput (Ne.symm (hspares _ _ hflow)))
      | aborted node => exact .inl rfl
      | observed hkey => exact .inl (hrestored _)
      | drained hkey hitems => exact .inl (hrestored _)
      | taken hkey hitemKey hitems =>
          rename_i node other itemKey item rest
          have hitem : key ≠ itemKey := by
            rintro rfl
            exact hqueue.items _ node hitemKey
          by_cases hother : other = key
          · refine .inr ⟨node, item, rest, rfl, hcut hitems hother, (hput hitem).trans ?_⟩
            rw [hother]
            exact Controls.put_values _ _ _
          · exact .inl ((hput hitem).trans ((hput (Ne.symm hother)).trans (hrestored node)))
      | dequeued hqueue => exact .inl rfl
      | returned node => exact .inl rfl
      | cleared => exact .inl rfl
      | processed request own => exact .inl rfl
      | changed store => exact .inl (hchange store rfl)

/-- The tails of a list of items are read back as they were written. -/
def RoundTrips (library : QueueLibrary) (items : List Json) : Prop :=
  ∀ rest, rest <:+ items → library.parse (library.serialize (.array rest)) = some (.array rest)

/-- A begin that cuts the queue draws its first item. -/
theorem drawn_of_cut {m : ControlMoment (Controls count) Store count} {node : Fin count} {item : Json}
    {rest : List Json} (hround : RoundTrips library (item :: rest))
    (hrequest : m.request.2 = .queueBegin node)
    (hitems : queueOf library m.before.values key = item :: rest)
    (hcut : m.after.values key = some (library.serialize (.array rest))) :
    drawn library key m = [item] ∧ queueOf library m.after.values key = rest := by
  have hleft : queueOf library m.after.values key = rest := by
    unfold queueOf
    rw [hcut, Option.bind_some, hround rest (List.suffix_cons item rest)]
  have hother : m.after.values key ≠ m.before.values key := by
    intro hsame
    have hequal : queueOf library m.after.values key = queueOf library m.before.values key := by
      unfold queueOf
      rw [hsame]
    rw [hleft, hitems] at hequal
    exact absurd (congrArg List.length hequal) (by simp)
  refine ⟨?_, hleft⟩
  unfold drawn
  rw [hrequest]
  dsimp only
  rw [if_neg hother, hitems]
  rfl

/-- What one call draws, and what it leaves. -/
theorem Answers.drawn_eq {call : List Fresh × ControlCall Store count}
    {answer : Except Salts ControlReply} (hqueue : QueueKey numbers session key)
    (hanswers : Answers numbers session library view c call answer next) (hspares : c.Spares key)
    (hround : RoundTrips library (queueOf library c.values key))
    (hchange : ∀ store, call.2 = .change store → next.values key = c.values key) :
    queueOf library c.values key =
      drawn library key ⟨c, call, answer, next⟩ ++ queueOf library next.values key := by
  rcases hanswers.values_eq hqueue hspares hchange with
    hsame | ⟨node, item, rest, hcall, hitems, hnext⟩
  · have hdrawn : drawn library key ⟨c, call, answer, next⟩ = [] := by
      unfold drawn
      split
      next => exact if_pos hsame
      next => rfl
    rw [hdrawn, List.nil_append]
    unfold queueOf
    rw [hsame]
  · rw [hitems] at hround
    obtain ⟨hdrawn, hleft⟩ := drawn_of_cut (m := ⟨c, call, answer, next⟩) hround hcall hitems hnext
    rw [hdrawn, hleft, hitems]
    rfl

/-- What a run draws, and what it leaves; on the way, what is left is a tail of the items. -/
theorem trace_drawn_eq {start last : Controls count}
    {moments : List (ControlMoment (Controls count) Store count)}
    (htrace : Trace (Answers numbers session library view) start moments last)
    (hqueue : QueueKey numbers session key) (hspares : start.Spares key)
    (hround : RoundTrips library (queueOf library start.values key))
    (hchange : ∀ m ∈ moments, ∀ store, m.request.2 = .change store →
      m.after.values key = m.before.values key) :
    queueOf library start.values key =
        moments.flatMap (drawn library key) ++ queueOf library last.values key ∧
      ∀ m ∈ moments, queueOf library m.before.values key <:+ queueOf library start.values key := by
  induction htrace with
  | done state => exact ⟨rfl, fun m hm => absurd hm List.not_mem_nil⟩
  | step hstep _ ih =>
      have hdrawn := hstep.drawn_eq hqueue hspares hround (hchange _ List.mem_cons_self)
      have hleft : queueOf library _ key <:+ queueOf library _ key := ⟨_, hdrawn.symm⟩
      obtain ⟨hrest, hmoments⟩ := ih (hstep.spares hqueue hspares)
        (fun rest htail => hround rest (htail.trans hleft))
        fun m hm => hchange m (List.mem_cons_of_mem _ hm)
      refine ⟨?_, fun m hm => ?_⟩
      · rw [List.flatMap_cons, List.append_assoc, ← hrest]
        exact hdrawn
      · rcases List.mem_cons.mp hm with rfl | hlater
        · exact List.suffix_refl _
        · exact (hmoments m hlater).trans hleft

end Steps

section Begins

variable {numbers : ControlNumbers Number} {session : PlannedSession Number count}
  {library : QueueLibrary} {view : Store → CString → Option Bytes} {c next : Controls count}
  {key : CString} {node : Fin count}

/-- A begin that is answered finds the queue empty, or it draws the first item and stores it. -/
theorem Performed.begin_cases {yes : Bool} (hqueue : QueueKey numbers session key)
    (hperformed : Performed numbers session library view c (.queueBegin node) (.flag yes) next)
    (hkey : namedKey numbers.toSessionNumbers session.toSessionImpl (c.restored session node).values
      node "queue_key" (some "task_queue") = some key) :
    (yes = false ∧ queueOf library c.values key = [] ∧ next.values key = c.values key) ∨
      yes = true ∧ ∃ item rest itemKey, queueOf library c.values key = item :: rest ∧
        next.values key = some (library.serialize (.array rest)) ∧
        namedKey numbers.toSessionNumbers session.toSessionImpl (c.restored session node).values
          node "item_key" (some "current_item") = some itemKey ∧
        next.values itemKey = some (library.serialize item) := by
  have hrestored : (c.restored session node).values key = c.values key :=
    Controls.restored_values session c node hqueue.input
  have hsame : queueOf library (c.restored session node).values key =
      queueOf library c.values key := by
    unfold queueOf
    rw [hrestored]
  cases hperformed with
  | drained hnamed hitems =>
      obtain rfl := Option.some.inj (hkey.symm.trans hnamed)
      refine .inl ⟨rfl, ?_, hrestored⟩
      rw [← hsame]
      cases hlist : queueOf library (c.restored session node).values key with
      | nil => rfl
      | cons item rest =>
          rw [queuedItems_eq_some.mpr hlist] at hitems
          cases hitems
  | taken hnamed hitemKey hitems =>
      rename_i other itemKey item rest
      obtain rfl := Option.some.inj (hkey.symm.trans hnamed)
      have hitem : key ≠ itemKey := by
        rintro rfl
        exact hqueue.items _ node hitemKey
      refine .inr ⟨rfl, item, rest, itemKey, ?_, ?_, hitemKey, Controls.put_values _ _ _⟩
      · rw [← hsame]
        exact queuedItems_eq_some.mp hitems
      · exact (Function.update_of_ne hitem _ _).trans (Controls.put_values _ _ _)

end Begins

section QueueRuns

variable {hooks : ValueHooks Store} {view : Store → CString → Option Bytes}
  (hlawful : hooks.Lawful view) {numbers : ControlNumbers Number}
  {session : PlannedSession Number count} {library : QueueLibrary}

include hlawful

end QueueRuns

section Sample

theorem sample_queueKey : QueueKey plainNumbers sampleSession (CString.literal "task_queue") where
  input := by decide
  outputs values node := by
    have hparameter : ∀ node, sessionParameter sampleSession.toSessionImpl node "output_key" = none := by
      decide
    unfold namedKey resolvedText
    rw [hparameter]
    show CString.ofBytes (ascii "pipeline_result") ≠ _
    decide
  items values node := by
    have hparameter : ∀ node, sessionParameter sampleSession.toSessionImpl node "item_key" = none := by
      decide
    unfold namedKey resolvedText
    rw [hparameter]
    show CString.ofBytes (ascii "current_item") ≠ _
    decide

theorem sample_roundTrips : RoundTrips flagLibrary [.bool true, .bool false] := by
  intro rest htail
  rw [List.suffix_cons_iff, List.suffix_cons_iff, List.suffix_nil] at htail
  rcases htail with rfl | rfl | rfl
  · rfl
  · rfl
  · rfl

end Sample

end Praktor.Session
