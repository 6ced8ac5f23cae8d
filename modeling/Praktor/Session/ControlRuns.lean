/-
# Runs of the controls

What the controls do along every run of a session.  A pipeline keeps the key that was named when it
began and carries the output of its last child, whatever else runs in between.
-/

import Praktor.Session.ControlRefinement

namespace Praktor.Session

open Praktor.Data Praktor.Math Praktor.Native
open Praktor.Runtime (NodeStatus)

variable {Store Number : Type} {count : Nat}

/-- A call with its answer, between two states of the controls. -/
abbrev ControlMoment (State Store : Type) (count : Nat) :=
  Moment State (List Fresh × ControlCall Store count) (Except Salts ControlReply)

/-- The state that calls to a session lead to which has just been initialized. -/
def stateAfter (numbers : ControlNumbers Number) (hooks : ValueHooks Store)
    (session : PlannedSession Number count) (library : QueueLibrary) (store : Store)
    (calls : List (List Fresh × ControlCall Store count)) : SessionState Store count :=
  reached (serveControl numbers hooks session library) (startControls session store) calls

/-- The moments of calls to a session, as the model of its controls shows them. -/
def controlMoments (numbers : ControlNumbers Number) (hooks : ValueHooks Store)
    (session : PlannedSession Number count) (library : QueueLibrary)
    (view : Store → CString → Option Bytes) (s : SessionState Store count)
    (calls : List (List Fresh × ControlCall Store count)) :
    List (ControlMoment (Controls count) Store count) :=
  (moments (serveControl numbers hooks session library) s calls).map
    (Moment.seen (SessionState.controls view))

section Steps

variable {session : PlannedSession Number count} {c : Controls count}

/-! ## Inputs that are restored -/

namespace Controls

theorem flow_of_dueAlong {path : List (Fin count × Fin count)} {parent : Fin count} {flow : Flow}
    (hdue : c.dueAlong session path = some (parent, flow)) : c.flow parent = some flow := by
  induction path with
  | nil => cases hdue
  | cons pair rest ih =>
      obtain ⟨descendant, above⟩ := pair
      unfold dueAlong at hdue
      split at hdue
      next => exact ih hdue
      next found hfound =>
        split at hdue
        next =>
          obtain ⟨rfl, rfl⟩ := Prod.mk.inj (Option.some.inj hdue)
          exact hfound
        next => exact ih hdue

/-- Nothing is restored, or the input of one pipeline is. -/
theorem restored_cases (session : PlannedSession Number count) (c : Controls count)
    (node : Fin count) :
    c.restored session node = c ∨ ∃ parent flow, c.flow parent = some flow ∧
      c.restored session node = c.renew parent flow := by
  unfold restored restoredAlong
  split
  next => exact .inl rfl
  next parent flow hdue => exact .inr ⟨parent, flow, flow_of_dueAlong hdue, rfl⟩

variable (session c) (node : Fin count)

theorem restored_entry : (c.restored session node).entry = c.entry := by
  rcases restored_cases session c node with hsame | ⟨parent, flow, -, hrenewed⟩
  · rw [hsame]
  · rw [hrenewed]
    rfl

/-- Only the input of pipelines is written. -/
theorem restored_values {key : CString} (hkey : key ≠ inputKey) :
    (c.restored session node).values key = c.values key := by
  rcases restored_cases session c node with hsame | ⟨parent, flow, -, hrenewed⟩
  · rw [hsame]
  · rw [hrenewed]
    exact Function.update_of_ne hkey _ _

/-- A pipeline is the same but for the generation of its input. -/
theorem restored_flow (other : Fin count) :
    (c.restored session node).flow other = c.flow other ∨ ∃ flow restored,
      c.flow other = some flow ∧
        (c.restored session node).flow other = some { flow with restored } := by
  rcases restored_cases session c node with hsame | ⟨parent, flow, hflow, hrenewed⟩
  · rw [hsame]
    exact .inl rfl
  · rw [hrenewed]
    by_cases hother : other = parent
    · subst hother
      exact .inr ⟨flow, c.generation, hflow, setFlow_flow _ _ _⟩
    · exact .inl (Function.update_of_ne hother _ _)

end Controls

/-! ## Calls that are accepted -/

/-- Everything that a call that is accepted can have done. -/
inductive Performed (numbers : ControlNumbers Number) (session : PlannedSession Number count)
    (library : QueueLibrary) (view : Store → CString → Option Bytes) (c : Controls count) :
    ControlCall Store count → ControlReply → Controls count → Prop
  | ticked : Performed numbers session library view c .tick .done
      { c with generation := nextGeneration c.generation }
  | restored (node : Fin count) :
      Performed numbers session library view c (.restore node) .done (c.restored session node)
  | decided (node : Fin count) (status : NodeStatus) :
      Performed numbers session library view c (.condition node) (.status status)
        (c.restored session node)
  | selected (node : Fin count) (child : Nat) :
      Performed numbers session library view c (.select node) (.child child)
        (c.restored session node)
  | prepared {node : Fin count} {flow : Flow} (child : Nat)
      (hflow : (c.restored session node).flowAt session numbers.toSessionNumbers node = some flow) :
      Performed numbers session library view c (.prepare node child) .done
        (((c.restored session node).setFlow node (some { flow with child })).put inputKey flow.data)
  | failed (node : Fin count) (child : Nat) :
      Performed numbers session library view c (.complete node child false) .done
        (c.setFlow node none)
  | handed {node : Fin count} {flow : Flow} {child : Nat} (hflow : c.flow node = some flow)
      (hmore : child + 1 ≠ (session.children node).length) :
      Performed numbers session library view c (.complete node child true) .done
        (c.setFlow node (some { flow with data := c.handedOn flow }))
  | finished {node : Fin count} {flow : Flow} {child : Nat} (hflow : c.flow node = some flow)
      (hlast : child + 1 = (session.children node).length) :
      Performed numbers session library view c (.complete node child true) .done
        ((c.put flow.key (c.handedOn flow)).setFlow node none)
  | aborted (node : Fin count) :
      Performed numbers session library view c (.abort node) .done (c.setFlow node none)
  | observed {node : Fin count} {key : CString}
      (hkey : namedKey numbers.toSessionNumbers session.toSessionImpl
        (c.restored session node).values node "watch_key" none = some key) :
      Performed numbers session library view c (.entryChanged node)
        (.flag (c.entry node ≠ some (valueAt (c.restored session node).values key)))
        ((c.restored session node).setEntry node
          (some (valueAt (c.restored session node).values key)))
  | drained {node : Fin count} {key : CString}
      (hkey : namedKey numbers.toSessionNumbers session.toSessionImpl
        (c.restored session node).values node "queue_key" (some "task_queue") = some key)
      (hitems : queuedItems library (c.restored session node) key = none) :
      Performed numbers session library view c (.queueBegin node) (.flag false)
        ((c.restored session node).setQueue node none)
  | taken {node : Fin count} {key itemKey : CString} {item : Json} {rest : List Json}
      (hkey : namedKey numbers.toSessionNumbers session.toSessionImpl
        (c.restored session node).values node "queue_key" (some "task_queue") = some key)
      (hitemKey : namedKey numbers.toSessionNumbers session.toSessionImpl
        (c.restored session node).values node "item_key" (some "current_item") = some itemKey)
      (hitems : queuedItems library (c.restored session node) key = some (item, rest)) :
      Performed numbers session library view c (.queueBegin node) (.flag true)
        (((((c.restored session node).setQueue node none).dequeued library key rest).put itemKey
          (library.serialize item)).setQueue node (some !rest.isEmpty))
  | dequeued {node : Fin count} {more : Bool} (hqueue : c.queue node = some more) :
      Performed numbers session library view c (.queueFinish node) (.flag more)
        (c.setQueue node none)
  | returned (node : Fin count) :
      Performed numbers session library view c (.queueAbort node) .done (c.setQueue node none)
  | cleared :
      Performed numbers session library view c .clear .done
        { c with flow := fun _ => none, entry := fun _ => none, queue := fun _ => none }
  | processed (request : CacheRequest count) (own : request.place.2.ofControl = false) :
      Performed numbers session library view c (.process request own) .done c
  | changed (store : Store) :
      Performed numbers session library view c (.change store) .done { c with values := view store }

/-- What `perform` says is one of these. -/
theorem perform_cases {numbers : ControlNumbers Number} {library : QueueLibrary}
    {view : Store → CString → Option Bytes} {next : Controls count}
    {call : ControlCall Store count} {reply : ControlReply}
    (hperform : perform numbers session library view c call = some (reply, next)) :
    Performed numbers session library view c call reply next := by
  cases call with
  | tick =>
      obtain ⟨rfl, rfl⟩ := Prod.mk.inj (Option.some.inj hperform)
      exact .ticked
  | restore node =>
      obtain ⟨rfl, rfl⟩ := Prod.mk.inj (Option.some.inj hperform)
      exact .restored node
  | condition node =>
      obtain ⟨truth, -, hsame⟩ := Option.map_eq_some_iff.mp hperform
      obtain ⟨rfl, rfl⟩ := Prod.mk.inj hsame
      exact .decided node _
  | select node =>
      obtain ⟨parsed, -, hsame⟩ := Option.map_eq_some_iff.mp hperform
      obtain ⟨rfl, rfl⟩ := Prod.mk.inj hsame
      exact .selected node _
  | prepare node child =>
      simp only [perform, Option.ite_none_left_eq_some, Option.map_eq_some_iff] at hperform
      obtain ⟨-, flow, hflow, hsame⟩ := hperform
      obtain ⟨rfl, rfl⟩ := Prod.mk.inj hsame
      exact .prepared child hflow
  | complete node child succeeded =>
      obtain ⟨flow, hflow, hrest⟩ := Option.bind_eq_some_iff.mp hperform
      rw [Option.ite_none_left_eq_some] at hrest
      cases succeeded with
      | false =>
          obtain ⟨rfl, rfl⟩ := Prod.mk.inj (Option.some.inj hrest.2)
          exact .failed node child
      | true =>
          have hmore := hrest.2
          by_cases hlast : child + 1 = (session.children node).length
          · rw [if_neg (by decide), if_pos hlast] at hmore
            obtain ⟨rfl, rfl⟩ := Prod.mk.inj (Option.some.inj hmore)
            exact .finished hflow hlast
          · rw [if_neg (by decide), if_neg hlast] at hmore
            obtain ⟨rfl, rfl⟩ := Prod.mk.inj (Option.some.inj hmore)
            exact .handed hflow hlast
  | abort node =>
      obtain ⟨rfl, rfl⟩ := Prod.mk.inj (Option.some.inj hperform)
      exact .aborted node
  | entryChanged node =>
      obtain ⟨key, hkey, hrest⟩ := Option.bind_eq_some_iff.mp hperform
      rw [Option.ite_none_left_eq_some] at hrest
      obtain ⟨rfl, rfl⟩ := Prod.mk.inj (Option.some.inj hrest.2)
      rw [Controls.restored_entry]
      exact .observed hkey
  | queueBegin node =>
      obtain ⟨key, hkey, htakes⟩ := Option.bind_eq_some_iff.mp hperform
      cases hitems : queuedItems library (c.restored session node) key with
      | none =>
          have hsame : queuedItems library ((c.restored session node).setQueue node none) key =
            none := hitems
          rw [Controls.takes_none hsame] at htakes
          obtain ⟨rfl, rfl⟩ := Prod.mk.inj (Option.some.inj htakes)
          exact .drained hkey hitems
      | some found =>
          obtain ⟨item, rest⟩ := found
          unfold Controls.takes at htakes
          have hsame : queuedItems library ((c.restored session node).setQueue node none) key =
            some (item, rest) := hitems
          rw [hsame] at htakes
          obtain ⟨itemKey, hitemKey, hrest⟩ := Option.bind_eq_some_iff.mp htakes
          obtain ⟨rfl, rfl⟩ := Prod.mk.inj (Option.some.inj hrest)
          exact .taken hkey hitemKey hitems
  | queueFinish node =>
      obtain ⟨more, hqueue, hrest⟩ := Option.bind_eq_some_iff.mp hperform
      obtain ⟨rfl, rfl⟩ := Prod.mk.inj (Option.some.inj hrest)
      exact .dequeued hqueue
  | queueAbort node =>
      obtain ⟨rfl, rfl⟩ := Prod.mk.inj (Option.some.inj hperform)
      exact .returned node
  | clear =>
      obtain ⟨rfl, rfl⟩ := Prod.mk.inj (Option.some.inj hperform)
      exact .cleared
  | process request own =>
      obtain ⟨rfl, rfl⟩ := Prod.mk.inj (Option.some.inj hperform)
      exact .processed request own
  | change store =>
      obtain ⟨rfl, rfl⟩ := Prod.mk.inj (Option.some.inj hperform)
      exact .changed store

end Steps

/-! ## Pipelines -/

section Pipelines

variable {numbers : ControlNumbers Number} {session : PlannedSession Number count}
  {library : QueueLibrary} {view : Store → CString → Option Bytes}

/-- The text that a pipeline carries, after one more call. -/
def carried (node : Fin count) (data : Bytes) (m : ControlMoment (Controls count) Store count) :
    Bytes :=
  match m.request.2, m.reply with
  | .complete other _ true, .ok _ =>
      if other = node then (m.before.values outputKey).getD data else data
  | _, _ => data

section Carried

variable {node : Fin count} {data : Bytes} {m : ControlMoment (Controls count) Store count}

theorem carried_error {code : Salts} (hreply : m.reply = .error code) : carried node data m = data := by
  unfold carried
  rw [hreply]
  split
  next hrequest hok => cases hok
  next => rfl

theorem carried_complete {child : Nat} {reply : ControlReply}
    (hrequest : m.request.2 = .complete node child true) (hreply : m.reply = .ok reply) :
    carried node data m = (m.before.values outputKey).getD data := by
  unfold carried
  rw [hrequest, hreply]
  exact if_pos rfl

theorem carried_other (hrequest : ∀ child, m.request.2 ≠ .complete node child true) :
    carried node data m = data := by
  unfold carried
  split
  next other child reply hsame hreply =>
    refine if_neg ?_
    rintro rfl
    exact hrequest child hsame
  next => rfl

end Carried

/-- The same result key and the same text. -/
def Flow.Same (first second : Flow) : Prop := second.key = first.key ∧ second.data = first.data

section Same

variable {c : Controls count} {node other : Fin count} {first second : Flow}

theorem Controls.setFlow_apply (c : Controls count) (node other : Fin count) (flow : Option Flow) :
    (c.setFlow other flow).flow node = if node = other then flow else c.flow node :=
  Function.update_apply _ _ _ _

theorem Controls.restored_same (hflow : c.flow node = some first)
    (hnext : (c.restored session other).flow node = some second) : first.Same second := by
  rcases Controls.restored_flow session c other node with hsame | ⟨flow, restored, hflow', hsome⟩
  · rw [hsame, hflow] at hnext
    rw [← Option.some.inj hnext]
    exact ⟨rfl, rfl⟩
  · rw [hnext] at hsome
    rw [hflow] at hflow'
    rw [Option.some.inj hsome, ← Option.some.inj hflow']
    exact ⟨rfl, rfl⟩

/-- The pipeline of one node, when that of another is set. -/
theorem Controls.setFlow_same {flow : Option Flow} (hother : node ≠ other)
    (hflow : c.flow node = some first) (hnext : (c.setFlow other flow).flow node = some second) :
    first.Same second := by
  rw [Controls.setFlow_apply, if_neg hother, hflow] at hnext
  rw [← Option.some.inj hnext]
  exact ⟨rfl, rfl⟩

/-- The pipeline of one node, when that of another or its own goes on to another child. -/
theorem Controls.prepared_same {flow : Flow} {child : Nat}
    (hat : (c.restored session other).flowAt session numbers.toSessionNumbers other = some flow)
    (hflow : c.flow node = some first)
    (hnext : ((c.restored session other).setFlow other (some { flow with child })).flow node =
      some second) : first.Same second := by
  rw [Controls.setFlow_apply] at hnext
  split at hnext
  next hother =>
    subst hother
    obtain ⟨kept, hkept⟩ : ∃ kept, (c.restored session node).flow node = some kept := by
      rcases Controls.restored_flow session c node node with hsame | ⟨flow, restored, -, hsome⟩
      · exact ⟨first, hsame.trans hflow⟩
      · exact ⟨_, hsome⟩
    unfold Controls.flowAt at hat
    rw [hkept, Option.some_or] at hat
    obtain rfl := Option.some.inj hat
    rw [← Option.some.inj hnext]
    have hsame : first.Same kept := Controls.restored_same hflow hkept
    exact hsame
  next => exact Controls.restored_same hflow hnext

end Same

/-- A call that fails leaves the key and the text of a pipeline that goes on. -/
theorem Refuses.flow_same {c next : Controls count} {call : ControlCall Store count} {node : Fin count}
    {first second : Flow} (hrefuses : Refuses numbers session library c call next)
    (hflow : c.flow node = some first) (hnext : next.flow node = some second) :
    first.Same second := by
  cases hrefuses with
  | nothing =>
      rw [hflow] at hnext
      rw [← Option.some.inj hnext]
      exact ⟨rfl, rfl⟩
  | renewed hcall => exact Controls.restored_same hflow hnext
  | begun other => exact Controls.restored_same hflow hnext
  | dequeued hkey hitems => exact Controls.restored_same hflow hnext
  | completed hlast =>
      rename_i other child
      by_cases hother : node = other
      · rw [hother, Controls.setFlow_flow] at hnext
        cases hnext
      · exact Controls.setFlow_same hother hflow hnext
  | prepared hat => exact Controls.prepared_same hat hflow hnext

/-- A call that is answered, other than the end of a child, leaves them too. -/
theorem Performed.flow_same {c next : Controls count} {call : ControlCall Store count}
    {reply : ControlReply} {node : Fin count} {first second : Flow}
    (hperformed : Performed numbers session library view c call reply next)
    (hcall : ∀ child, call ≠ .complete node child true) (hflow : c.flow node = some first)
    (hnext : next.flow node = some second) : first.Same second := by
  have hkept : next.flow node = c.flow node → first.Same second := by
    intro hsame
    rw [hsame, hflow] at hnext
    rw [← Option.some.inj hnext]
    exact ⟨rfl, rfl⟩
  cases hperformed with
  | ticked => exact hkept rfl
  | restored other => exact Controls.restored_same hflow hnext
  | decided other => exact Controls.restored_same hflow hnext
  | selected other => exact Controls.restored_same hflow hnext
  | prepared child hat => exact Controls.prepared_same hat hflow hnext
  | failed other child =>
      by_cases hother : node = other
      · rw [hother, Controls.setFlow_flow] at hnext
        cases hnext
      · exact Controls.setFlow_same hother hflow hnext
  | handed hother hmore =>
      rename_i other flow child
      refine Controls.setFlow_same ?_ hflow hnext
      rintro rfl
      exact hcall child rfl
  | finished hother hlast =>
      rename_i other flow child
      refine Controls.setFlow_same ?_ hflow hnext
      rintro rfl
      exact hcall child rfl
  | aborted other =>
      by_cases hother : node = other
      · rw [hother, Controls.setFlow_flow] at hnext
        cases hnext
      · exact Controls.setFlow_same hother hflow hnext
  | observed hkey => exact Controls.restored_same hflow hnext
  | drained hkey hitems => exact Controls.restored_same hflow hnext
  | taken hkey hitemKey hitems => exact Controls.restored_same hflow hnext
  | dequeued hqueue => exact hkept rfl
  | returned other => exact hkept rfl
  | cleared => cases hnext
  | processed request own => exact hkept rfl
  | changed store => exact hkept rfl

/-- A pipeline that goes on keeps its key, and carries the output of its last child. -/
theorem Answers.flow_carried {c next : Controls count} {call : List Fresh × ControlCall Store count}
    {answer : Except Salts ControlReply} {node : Fin count} {first second : Flow}
    (hanswers : Answers numbers session library view c call answer next)
    (hflow : c.flow node = some first) (hnext : next.flow node = some second) :
    second.key = first.key ∧ second.data = carried node first.data ⟨c, call, answer, next⟩ := by
  obtain ⟨fresh, call⟩ := call
  cases answer with
  | error code =>
      obtain ⟨hkey, hdata⟩ := Refuses.flow_same hanswers hflow hnext
      exact ⟨hkey, hdata.trans (carried_error rfl).symm⟩
  | ok reply =>
      have hperformed := perform_cases hanswers
      by_cases hcall : ∃ child, call = .complete node child true
      · obtain ⟨child, rfl⟩ := hcall
        rw [carried_complete rfl rfl]
        cases hperformed with
        | handed hhere hmore =>
            rw [hflow] at hhere
            rw [Controls.setFlow_flow] at hnext
            obtain rfl := Option.some.inj hhere
            rw [← Option.some.inj hnext]
            exact ⟨rfl, rfl⟩
        | finished hhere hlast =>
            rw [Controls.setFlow_flow] at hnext
            cases hnext
      · have hother : ∀ child, call ≠ .complete node child true :=
          fun child hsame => hcall ⟨child, hsame⟩
        obtain ⟨hkey, hdata⟩ := hperformed.flow_same hother hflow hnext
        exact ⟨hkey, hdata.trans (carried_other hother).symm⟩

/-- A child is given what the pipeline carries. -/
theorem Performed.prepare_cases {c next : Controls count} {node : Fin count} {child : Nat}
    {reply : ControlReply}
    (hperformed : Performed numbers session library view c (.prepare node child) reply next) :
    ∃ flow, (c.restored session node).flowAt session numbers.toSessionNumbers node = some flow ∧
      next.flow node = some { flow with child } ∧ next.values inputKey = some flow.data := by
  cases hperformed with
  | prepared child hat =>
      exact ⟨_, hat, Controls.setFlow_flow _ _ _, Controls.put_values _ _ _⟩

/-- The last child of a pipeline has its output written. -/
theorem Performed.complete_last {c next : Controls count} {node : Fin count} {child : Nat}
    {reply : ControlReply} {flow : Flow}
    (hperformed : Performed numbers session library view c (.complete node child true) reply next)
    (hchild : child + 1 = (session.children node).length) (hflow : c.flow node = some flow) :
    next.values = Function.update c.values flow.key (some (c.handedOn flow)) := by
  cases hperformed with
  | handed hhere hmore => exact absurd hchild hmore
  | finished hhere hlast =>
      rw [hflow] at hhere
      obtain rfl := Option.some.inj hhere
      rfl

section Begins

variable {c : Controls count} {node : Fin count} {flow : Flow}

theorem Controls.restored_idle (session : PlannedSession Number count) (hidle : c.flow node = none) :
    (c.restored session node).flow node = none := by
  rcases Controls.restored_flow session c node node with hsame | ⟨flow, restored, hflow, -⟩
  · exact hsame.trans hidle
  · rw [hidle] at hflow
    cases hflow

theorem Controls.captured_of_idle (hidle : c.flow node = none)
    (hat : c.flowAt session numbers.toSessionNumbers node = some flow) :
    c.captured session numbers.toSessionNumbers node = some ⟨flow.key, flow.data, 0, 0⟩ := by
  unfold Controls.flowAt at hat
  rw [hidle, Option.none_or] at hat
  obtain ⟨key, hkey, hrest⟩ := Option.bind_eq_some_iff.mp hat
  obtain ⟨input, hinput, hsome⟩ := Option.bind_eq_some_iff.mp hrest
  rw [hat, ← Option.some.inj hsome]

/-- A pipeline that lasts is the one that goes on. -/
theorem Controls.flowAt_same {now : Flow} (hnow : c.flow node = some now)
    (hat : (c.restored session node).flowAt session numbers.toSessionNumbers node = some flow) :
    now.Same flow := by
  have hset : ((c.restored session node).setFlow node (some { flow with child := flow.child })).flow
      node = some flow := Controls.setFlow_flow _ _ _
  exact Controls.prepared_same hat hnow hset

end Begins

/-- Along a run through which a pipeline lasts. -/
theorem trace_flow_carried {start last : Controls count}
    {moments : List (ControlMoment (Controls count) Store count)} {node : Fin count} {flow : Flow}
    (htrace : Trace (Answers numbers session library view) start moments last)
    (hlasting : ∀ m ∈ moments, (m.after.flow node).isSome) (hflow : start.flow node = some flow) :
    ∃ now, last.flow node = some now ∧ now.key = flow.key ∧
      now.data = moments.foldl (carried node) flow.data := by
  induction htrace generalizing flow with
  | done state => exact ⟨flow, hflow, rfl, rfl⟩
  | step hstep _ ih =>
      obtain ⟨next, hnext⟩ := Option.isSome_iff_exists.mp (hlasting _ List.mem_cons_self)
      obtain ⟨hkey, hdata⟩ := hstep.flow_carried hflow hnext
      obtain ⟨now, hnow, hkey', hdata'⟩ :=
        ih (fun m hm => hlasting m (List.mem_cons_of_mem _ hm)) hnext
      refine ⟨now, hnow, hkey'.trans hkey, hdata'.trans ?_⟩
      rw [List.foldl_cons, hdata]

end Pipelines

section PipelineRuns

variable {hooks : ValueHooks Store} {view : Store → CString → Option Bytes}
  (hlawful : hooks.Lawful view) (numbers : ControlNumbers Number)
  (session : PlannedSession Number count) (library : QueueLibrary)

include hlawful

/-- A pipeline hands the output of every child to the next, and writes the last under the key that
was named when it began, whatever is called in between. -/
theorem pipeline_hands_on {store : Store} {calls later : List (List Fresh × ControlCall Store count)}
    {node : Fin count} {child : Nat} {fresh : List Fresh} {first : SessionState Store count}
    (hidle : ((stateAfter numbers hooks session library store calls).controls view).flow node = none)
    (hbegin : serveControl numbers hooks session library
      (stateAfter numbers hooks session library store calls) (fresh, .prepare node child) =
        (first, .ok .done))
    (hlasting : ∀ m ∈ controlMoments numbers hooks session library view first later,
      (m.after.flow node).isSome) :
    let start := ((stateAfter numbers hooks session library store calls).controls view).restored
      session node
    let last := reached (serveControl numbers hooks session library) first later
    ∃ key input, start.captured session numbers.toSessionNumbers node = some ⟨key, input, 0, 0⟩ ∧
      view first.store inputKey = some input ∧
      (∀ {fresh child next}, serveControl numbers hooks session library last
          (fresh, .prepare node child) = (next, .ok .done) →
        view next.store inputKey = some ((controlMoments numbers hooks session library view first
          later).foldl (carried node) input)) ∧
      ∀ {fresh child next}, child + 1 = (session.children node).length →
        serveControl numbers hooks session library last (fresh, .complete node child true) =
          (next, .ok .done) →
        view next.store = Function.update (view last.store) key
          (some ((view last.store outputKey).getD ((controlMoments numbers hooks session library view
            first later).foldl (carried node) input))) := by
  intro start last
  have hrunning : Running session (stateAfter numbers hooks session library store calls) :=
    (startControls_running session store).reached hlawful numbers session library calls
  have hbegun := serveControl_spec hlawful numbers session library _ (fresh, .prepare node child)
    hrunning
  have hfirst := serveControl_running hlawful numbers session library _ (fresh, .prepare node child)
    hrunning
  rw [hbegin] at hbegun hfirst
  obtain ⟨flow, hat, hflow, hinput⟩ := (perform_cases hbegun).prepare_cases
  have hcaptured := Controls.captured_of_idle (Controls.restored_idle session hidle) hat
  obtain ⟨now, hnow, hkey, hdata⟩ := trace_flow_carried
    (hfirst.trace hlawful numbers session library later) hlasting hflow
  have hlast : Running session last := hfirst.reached hlawful numbers session library later
  refine ⟨flow.key, flow.data, hcaptured, hinput, ?_, ?_⟩
  · intro fresh child next hserve
    have hspec := serveControl_spec hlawful numbers session library _ (fresh, .prepare node child)
      hlast
    rw [hserve] at hspec
    obtain ⟨flow', hat', -, hinput'⟩ := (perform_cases hspec).prepare_cases
    have hsame : now.Same flow' := Controls.flowAt_same hnow hat'
    exact hinput'.trans (congrArg some (hsame.2.trans hdata))
  · intro fresh child next hchild hserve
    have hspec := serveControl_spec hlawful numbers session library _
      (fresh, .complete node child true) hlast
    rw [hserve] at hspec
    have hwritten := (perform_cases hspec).complete_last hchild hnow
    unfold Controls.handedOn at hwritten
    rw [hkey, hdata] at hwritten
    exact hwritten

end PipelineRuns

/-- A pipeline that begins, and whose first child has ended. -/
theorem sample_pipeline_hands_on :
    let start := stateAfter plainNumbers nativeHostBind sampleSession flagLibrary sampleHost []
    let first := (serveControl plainNumbers nativeHostBind sampleSession flagLibrary start
      ([], .prepare 0 0)).1
    ∃ key input, ((start.controls hostView).restored sampleSession 0).captured sampleSession
        plainNumbers.toSessionNumbers 0 = some ⟨key, input, 0, 0⟩ ∧
      hostView first.store inputKey = some input := by
  intro start first
  have hbegin : serveControl plainNumbers nativeHostBind sampleSession flagLibrary start
      ([], .prepare 0 0) = (first, .ok .done) := Prod.ext rfl (by decide +kernel)
  have hlasting : ∀ m ∈ controlMoments plainNumbers nativeHostBind sampleSession flagLibrary hostView
      first [([], .queueBegin 2), ([], .complete 0 0 true)], (m.after.flow 0).isSome := by
    decide +kernel
  obtain ⟨key, input, hcaptured, hinput, -⟩ := pipeline_hands_on nativeHostBind_lawful plainNumbers
    sampleSession flagLibrary rfl hbegin hlasting
  exact ⟨key, input, hcaptured, hinput⟩

end Praktor.Session
