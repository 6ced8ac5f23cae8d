/-
# The owners of leaf activations

A leaf is run by the host, by the compatibility dispatcher or by the process driver.  The one that
answered RUNNING owns the activation until it ends, and its halt hook is called once at most.

What the host, the dispatcher and the driver answer is given from outside, one answer for every
call that a callback may make.
-/

import Mathlib.Data.List.Induction
import Praktor.Session.Nodes

namespace Praktor.Session.Ownership

open Praktor.Data

variable {Number : Type} {count : Nat}

/-! ## Sessions -/

/-- `OWNER_NONE` and the other owners of a leaf. -/
inductive LeafOwner
  | unowned
  | host
  | compatibility
  | process
  deriving DecidableEq, Repr

/-- The status that a hook leaves in `*status`. -/
inductive LeafStatus
  | running
  | success
  | failure
  | invalid
  deriving DecidableEq, Repr

/-- `valid_status`. -/
def validStatus (status : LeafStatus) : Bool := status ≠ .invalid

/-- Which hooks a session has. -/
structure LeafHooks where
  tickLeaf : Bool
  tickTypedLeaf : Bool
  haltLeaf : Bool
  haltTypedLeaf : Bool
  valueGet : Bool
  compatibilityTick : Bool

/-- What a session does not change: its hooks, its nodes, and which nodes are in a branch. -/
structure LeafSession (Number : Type) (count : Nat) where
  hooks : LeafHooks
  nodes : Fin count → SessionNode Number
  branch : Fin count → Bool

/-- `leaf_owner` of a node, and whether its process driver is there. -/
structure LeafState where
  owner : LeafOwner
  driver : Bool
  deriving DecidableEq, Repr

/-! ## Answers -/

/-- What the process driver answers in a callback. -/
structure ProcessReplies where
  /-- The outcome of `start_process`, and whether the driver is there after it. -/
  started : Salts × Bool
  /-- The outcome of a tick of the driver, and whether the process is done. -/
  ticked : Salts × Bool
  /-- The process has exited with code 0 and within its bounds. -/
  success : Bool
  closed : Salts
  published : Salts
  /-- The driver is active when the process is finalized. -/
  active : Bool
  released : Salts

/-- What is answered in a tick. -/
structure TickReplies where
  switched : Salts
  restored : Salts
  host : Salts × LeafStatus
  compatibility : Salts × LeafStatus
  process : ProcessReplies

/-- What is answered in a halt: the driver is active before, and the rest. -/
structure HaltReplies where
  active : Bool
  process : ProcessReplies

/-- The calls of a callback that matter here. -/
inductive Dispatch
  | host
  | compatibility
  | process
  | halt
  deriving DecidableEq, Repr

/-- What a tick comes to. -/
structure TickOutcome where
  state : LeafState
  code : Salts
  status : LeafStatus
  dispatches : List Dispatch

/-! ## Callbacks -/

/-- `finalize_process`. -/
def finalizeProcess (replies : ProcessReplies) (st : LeafState) : LeafState :=
  if st.driver && replies.active then { st with owner := .process }
  else if st.driver && replies.released ≠ .ok then st
  else { owner := .unowned, driver := false }

/-- `tick_process` once the driver is there. -/
def tickDriver (replies : ProcessReplies) (st : LeafState) : TickOutcome :=
  let st := { st with owner := .process }
  if replies.ticked.1 ≠ .ok then ⟨finalizeProcess replies st, .ok, .failure, [.process]⟩
  else if !replies.ticked.2 then ⟨st, .ok, .running, [.process]⟩
  else
    let success := replies.success && replies.closed = .ok && replies.published = .ok
    ⟨finalizeProcess replies st, .ok, if success then .success else .failure, [.process]⟩

/-- `tick_process`. -/
def tickProcess (replies : ProcessReplies) (st : LeafState) : TickOutcome :=
  if !st.driver then
    let st := { st with driver := replies.started.2 }
    if replies.started.1 ≠ .ok then ⟨finalizeProcess replies st, .ok, .failure, [.process]⟩
    else tickDriver replies st
  else tickDriver replies st

section Callbacks

variable (session : LeafSession Number count) (node : Fin count)

/-- `dispatch_halt`. -/
def dispatchHalt : List Dispatch :=
  if session.hooks.haltTypedLeaf then [.halt]
  else if session.hooks.haltLeaf then [.halt]
  else []

/-- `halt_leaf`. -/
def haltLeaf (replies : HaltReplies) (st : LeafState) : LeafState × List Dispatch :=
  let owner := st.owner
  let st := { st with owner := .unowned }
  if owner = .process || (st.driver && replies.active) then
    (finalizeProcess replies.process st, [])
  else if owner = .host || owner = .compatibility then (st, dispatchHalt session)
  else (st, [])

/-- The end of `tick_leaf`, for the compatibility dispatcher. -/
def tickCompatibility (replies : TickReplies) (st : LeafState) : TickOutcome :=
  if !session.hooks.compatibilityTick then ⟨st, .enotsup, .invalid, []⟩
  else
    let (code, status) := replies.compatibility
    if code ≠ .ok then ⟨st, code, status, [.compatibility]⟩
    else if !validStatus status then ⟨st, .einval, status, [.compatibility]⟩
    else if status = .running && !session.hooks.haltLeaf && !session.hooks.haltTypedLeaf then
      ⟨st, .enotsup, status, [.compatibility]⟩
    else
      ⟨{ st with owner := if status = .running then .compatibility else .unowned }, .ok, status,
        [.compatibility]⟩

/-- `tick_leaf` where the host does not run the leaf. -/
def tickFallback (replies : TickReplies) (st : LeafState) : TickOutcome :=
  let shell := (session.nodes node).action = CString.literal "Shell"
  if st.owner = .compatibility then tickCompatibility session replies st
  else if session.hooks.valueGet && !shell then ⟨st, .enotsup, .invalid, []⟩
  else if session.branch node then ⟨st, .enotsup, .invalid, []⟩
  else if shell then tickProcess replies.process st
  else tickCompatibility session replies st

/-- `tick_leaf` where the host is asked. -/
def tickHost (replies : TickReplies) (st : LeafState) : TickOutcome :=
  let (code, status) := replies.host
  if code = .ok && validStatus status then
    ⟨{ st with owner := if status = .running then .host else .unowned }, .ok, status, [.host]⟩
  else if code ≠ .enotsup || st.owner = .host then
    ⟨{ st with owner := .unowned }, if code = .ok then .einval else code, status,
      .host :: dispatchHalt session⟩
  else
    let outcome := tickFallback session node replies st
    { outcome with dispatches := .host :: outcome.dispatches }

/-- `tick_leaf`. -/
def tickLeaf (replies : TickReplies) (st : LeafState) : TickOutcome :=
  match (session.nodes node).terminal with
  | .success => ⟨st, .ok, .success, []⟩
  | .failure => ⟨st, .ok, .failure, []⟩
  | .switchFailure =>
      if session.branch node then ⟨st, .enotsup, .invalid, []⟩
      else if replies.switched ≠ .ok then ⟨st, replies.switched, .invalid, []⟩
      else ⟨st, .ok, .failure, []⟩
  | .runtime =>
      if !session.branch node && replies.restored ≠ .ok then ⟨st, replies.restored, .invalid, []⟩
      else if st.owner = .process then tickProcess replies.process st
      else if st.owner ≠ .compatibility &&
          (session.hooks.tickLeaf || session.hooks.tickTypedLeaf) then
        tickHost session node replies st
      else tickFallback session node replies st

end Callbacks

/-! ## Runs -/

/-- The callbacks of a session, with what is answered in each.  `clear_execution` comes to an end
or is refused, and it asks the drivers which of them are active. -/
inductive Callback (count : Nat)
  | tick (node : Fin count) (replies : TickReplies)
  | halt (node : Fin count) (replies : HaltReplies)
  | clear (code : Salts) (active : Fin count → Bool)

/-- The states of all nodes. -/
abbrev LeafStates (count : Nat) := Fin count → LeafState

/-- Before the first callback no node has an owner. -/
def initial : LeafStates count := fun _ => ⟨.unowned, false⟩

/-- The loop of `clear_execution` at a node. -/
def cleared (active : Bool) (st : LeafState) : LeafState :=
  { st with owner := if st.driver && active then .process else .unowned }

/-- One callback. -/
def step (session : LeafSession Number count) (states : LeafStates count) :
    Callback count → LeafStates count
  | .tick node replies =>
      Function.update states node (tickLeaf session node replies (states node)).state
  | .halt node replies => Function.update states node (haltLeaf session replies (states node)).1
  | .clear code active =>
      if code ≠ .ok then states else fun node => cleared (active node) (states node)

/-- The calls that a callback makes for a node. -/
def dispatched (session : LeafSession Number count) (states : LeafStates count) (node : Fin count) :
    Callback count → List Dispatch
  | .tick other replies =>
      if other = node then (tickLeaf session node replies (states node)).dispatches else []
  | .halt other replies =>
      if other = node then (haltLeaf session replies (states node)).2 else []
  | .clear _ _ => []

/-- A run of callbacks. -/
def run (session : LeafSession Number count) (callbacks : List (Callback count))
    (states : LeafStates count) : LeafStates count :=
  callbacks.foldl (step session) states

/-- The calls that a run makes for a node. -/
def calls (session : LeafSession Number count) (node : Fin count) :
    List (Callback count) → LeafStates count → List Dispatch
  | [], _ => []
  | callback :: rest, states =>
      dispatched session states node callback ++ calls session node rest (step session states callback)

/-! ## One tick -/

/-- The call through which an owner runs a leaf. -/
def LeafOwner.call : LeafOwner → Option Dispatch
  | .unowned => none
  | .host => some .host
  | .compatibility => some .compatibility
  | .process => some .process

/-- The calls of a halt hook that an activation may still come to. -/
def LeafState.due (st : LeafState) : Nat :=
  if st.owner = .host ∨ st.owner = .compatibility then 1 else 0

/-- What a tick of a node without a terminal action comes to. -/
structure Ticked (st : LeafState) (outcome : TickOutcome) : Prop where
  /-- An owned leaf is run by its owner. -/
  asks : ∀ call ∈ outcome.dispatches,
    call = .halt ∨ st.owner = .unowned ∨ st.owner.call = some call
  /-- The last that was asked owns what is running. -/
  running : outcome.code = .ok → outcome.status = .running →
    outcome.state.owner ≠ .unowned ∧ outcome.state.owner.call = outcome.dispatches.getLast?
  ended : outcome.code = .ok → outcome.status ≠ .running → outcome.state.due = 0
  once : outcome.dispatches.count .halt + outcome.state.due ≤
    if st.owner = .unowned then 1 else st.due
  held : outcome.state.due ≠ 0 → (outcome.code = .ok ∧ outcome.status = .running) ∨
    (outcome.state.owner = st.owner ∧ outcome.dispatches.count .halt = 0)

section Tick

variable (session : LeafSession Number count) (node : Fin count) (replies : TickReplies)
  {st : LeafState}

/-- A node that was finalized belongs to the driver or to nobody. -/
theorem finalizeProcess_due (replies : ProcessReplies) (hdue : st.due = 0) :
    (finalizeProcess replies st).due = 0 := by
  unfold finalizeProcess
  split
  · rfl
  split
  · exact hdue
  · rfl

theorem tickDriver_ticked (replies : ProcessReplies)
    (howner : st.owner = .unowned ∨ st.owner = .process) : Ticked st (tickDriver replies st) := by
  have hdispatches : (tickDriver replies st).dispatches = [.process] := by
    unfold tickDriver
    dsimp only
    split
    · rfl
    split <;> rfl
  have hdue : (tickDriver replies st).state.due = 0 := by
    unfold tickDriver
    dsimp only
    split
    · exact finalizeProcess_due replies rfl
    split
    · rfl
    · exact finalizeProcess_due replies rfl
  refine ⟨fun call hcall => ?_, fun _ hrunning => ?_, fun _ _ => hdue, ?_,
    fun hne => absurd hdue hne⟩
  · rw [hdispatches, List.mem_singleton] at hcall
    subst hcall
    rcases howner with howner | howner
    · exact .inr (.inl howner)
    · exact .inr (.inr (by rw [howner]; rfl))
  · rw [hdispatches]
    unfold tickDriver at hrunning ⊢
    dsimp only at hrunning ⊢
    split at hrunning
    · cases hrunning
    split at hrunning
    · rename_i hticked hdone
      rw [if_neg hticked, if_pos hdone]
      exact ⟨by simp, rfl⟩
    · split at hrunning <;> cases hrunning
  · rw [hdispatches, hdue]
    exact Nat.zero_le _

theorem tickProcess_ticked (replies : ProcessReplies)
    (howner : st.owner = .unowned ∨ st.owner = .process) :
    Ticked st (tickProcess replies st) := by
  unfold tickProcess
  split
  · dsimp only
    split
    · have hdue : (finalizeProcess replies { st with driver := replies.started.2 }).due = 0 := by
        refine finalizeProcess_due replies ?_
        rcases howner with howner | howner <;> simp [LeafState.due, howner]
      refine ⟨fun call hcall => ?_, nofun, fun _ _ => hdue, ?_, fun hne => absurd hdue hne⟩
      · rw [List.mem_singleton] at hcall
        subst hcall
        rcases howner with howner | howner
        · exact .inr (.inl howner)
        · exact .inr (.inr (by rw [howner]; rfl))
      · show List.count _ [Dispatch.process] + _ ≤ _
        rw [hdue]
        exact Nat.zero_le _
    · obtain ⟨hasks, hrunning, hended, honce, hheld⟩ :=
        @tickDriver_ticked { st with driver := replies.started.2 } replies howner
      exact ⟨hasks, hrunning, hended, honce, hheld⟩
  · exact tickDriver_ticked replies howner

theorem due_le (st : LeafState) : st.due ≤ if st.owner = .unowned then 1 else st.due := by
  unfold LeafState.due
  split <;> split <;> simp

/-- A tick that is refused leaves the node as it was. -/
theorem refused_ticked {code : Salts} (hcode : code ≠ .ok) (status : LeafStatus)
    {calls : List Dispatch} (hcalls : ∀ call ∈ calls, call ≠ .halt)
    (hasks : ∀ call ∈ calls, st.owner = .unowned ∨ st.owner.call = some call) :
    Ticked st ⟨st, code, status, calls⟩ := by
  have hcount : calls.count .halt = 0 := List.count_eq_zero.mpr fun hmem => hcalls _ hmem rfl
  refine ⟨fun call hcall => .inr (hasks call hcall), fun hok => absurd hok hcode,
    fun hok => absurd hok hcode, ?_, fun _ => .inr ⟨rfl, hcount⟩⟩
  show calls.count .halt + st.due ≤ _
  rw [hcount, Nat.zero_add]
  exact due_le st

/-- A hook has answered: it owns the node if that is running. -/
theorem answered_ticked {owner : LeafOwner} {call : Dispatch} (hcall : owner.call = some call)
    (hheld : owner = .host ∨ owner = .compatibility)
    (howner : st.owner = .unowned ∨ st.owner = owner) (status : LeafStatus) :
    Ticked st ⟨{ st with owner := if status = .running then owner else .unowned }, .ok, status,
      [call]⟩ := by
  have hhalt : call ≠ .halt := by
    rintro rfl
    rcases hheld with rfl | rfl <;> cases hcall
  have hone : (if st.owner = .unowned then 1 else st.due) = 1 := by
    rcases howner with howner | howner
    · rw [if_pos howner]
    · rcases hheld with rfl | rfl <;> simp [LeafState.due, howner]
  have hasks : st.owner = .unowned ∨ st.owner.call = some call :=
    howner.imp id fun howner => by rw [howner]; exact hcall
  by_cases hstatus : status = .running
  · rw [if_pos hstatus]
    have hdue : LeafState.due { st with owner := owner } = 1 := if_pos hheld
    refine ⟨fun asked hasked => ?_, fun _ _ => ⟨?_, hcall⟩, fun _ hended => absurd hstatus hended,
      ?_, fun _ => .inl ⟨rfl, hstatus⟩⟩
    · obtain rfl := List.mem_singleton.mp hasked
      exact .inr hasks
    · rcases hheld with rfl | rfl <;> exact nofun
    · show List.count .halt [call] + LeafState.due _ ≤ _
      rw [hone, hdue, List.count_cons_of_ne hhalt]
      exact Nat.le_refl 1
  · rw [if_neg hstatus]
    refine ⟨fun asked hasked => ?_, fun _ hrunning => absurd hrunning hstatus, fun _ _ => rfl, ?_,
      fun hdue => absurd rfl hdue⟩
    · obtain rfl := List.mem_singleton.mp hasked
      exact .inr hasks
    · show List.count .halt [call] + 0 ≤ _
      rw [hone, List.count_cons_of_ne hhalt]
      exact Nat.zero_le 1

theorem tickCompatibility_ticked (howner : st.owner = .unowned ∨ st.owner = .compatibility) :
    Ticked st (tickCompatibility session replies st) := by
  have hcalls : ∀ call ∈ [Dispatch.compatibility], call ≠ .halt := by decide
  have hasks : ∀ call ∈ [Dispatch.compatibility],
      st.owner = .unowned ∨ st.owner.call = some call := by
    intro call hcall
    obtain rfl := List.mem_singleton.mp hcall
    exact howner.imp id fun howner => by rw [howner]; rfl
  unfold tickCompatibility
  split
  · exact refused_ticked (by decide) _ (fun _ hcall => nomatch hcall) (fun _ hcall => nomatch hcall)
  dsimp only
  split
  · rename_i hcode
    exact refused_ticked hcode _ hcalls hasks
  split
  · exact refused_ticked (by decide) _ hcalls hasks
  split
  · exact refused_ticked (by decide) _ hcalls hasks
  · exact answered_ticked rfl (.inr rfl) howner _

theorem tickFallback_ticked (howner : st.owner = .unowned ∨ st.owner = .compatibility) :
    Ticked st (tickFallback session node replies st) := by
  have hnone : ∀ call ∈ ([] : List Dispatch), call ≠ .halt := nofun
  unfold tickFallback
  dsimp only
  split
  · exact tickCompatibility_ticked session replies howner
  rename_i hother
  split
  · exact refused_ticked (by decide) _ hnone nofun
  split
  · exact refused_ticked (by decide) _ hnone nofun
  split
  · exact tickProcess_ticked _ (.inl (howner.resolve_right hother))
  · exact tickCompatibility_ticked session replies howner

theorem dispatchHalt_count : (dispatchHalt session).count .halt ≤ 1 := by
  unfold dispatchHalt
  split
  · decide
  split <;> decide

theorem tickHost_ticked (howner : st.owner = .unowned ∨ st.owner = .host) :
    Ticked st (tickHost session node replies st) := by
  have hasks : st.owner = .unowned ∨ st.owner.call = some .host :=
    howner.imp id fun howner => by rw [howner]; rfl
  have hone : (if st.owner = .unowned then 1 else st.due) = 1 := by
    rcases howner with howner | howner <;> simp [LeafState.due, howner]
  unfold tickHost
  dsimp only
  split
  · exact answered_ticked rfl (.inl rfl) howner _
  split
  · have hcode : (if replies.host.1 = .ok then Salts.einval else replies.host.1) ≠ .ok := by
      split
      · decide
      · assumption
    refine ⟨fun call hcall => ?_, fun hok => absurd hok hcode, fun hok => absurd hok hcode, ?_,
      fun hheld => absurd rfl hheld⟩
    · rcases List.mem_cons.mp hcall with rfl | hhalt
      · exact .inr hasks
      · unfold dispatchHalt at hhalt
        split at hhalt
        · exact .inl (List.mem_singleton.mp hhalt)
        split at hhalt
        · exact .inl (List.mem_singleton.mp hhalt)
        · cases hhalt
    · show List.count .halt (Dispatch.host :: dispatchHalt session) + 0 ≤ _
      rw [hone, List.count_cons_of_ne (by decide)]
      exact dispatchHalt_count session
  rename_i hdeclined
  rw [Bool.or_eq_true, decide_eq_true_eq, decide_eq_true_eq, not_or, not_not] at hdeclined
  have hunowned : st.owner = .unowned := howner.resolve_right hdeclined.2
  obtain ⟨-, hrunning, hended, honce, hheld⟩ :=
    tickFallback_ticked session node replies (.inl hunowned)
  refine ⟨fun call _ => .inr (.inl hunowned), fun hok hstatus => ?_, hended, ?_, ?_⟩
  · obtain ⟨hsome, hlast⟩ := hrunning hok hstatus
    refine ⟨hsome, hlast.trans ?_⟩
    have hne : (tickFallback session node replies st).dispatches ≠ [] := by
      intro hnil
      rw [hnil] at hlast
      revert hlast hsome
      cases (tickFallback session node replies st).state.owner <;> simp [LeafOwner.call]
    show _ = (Dispatch.host :: _).getLast?
    rw [List.getLast?_cons, List.getLast?_eq_some_getLast hne]
    rfl
  · show List.count .halt (Dispatch.host :: _) + _ ≤ _
    rw [List.count_cons_of_ne (by decide)]
    exact honce
  · intro hdueNe
    refine (hheld hdueNe).imp id fun hkept => ⟨hkept.1, ?_⟩
    show List.count .halt (Dispatch.host :: _) = 0
    rw [List.count_cons_of_ne (by decide)]
    exact hkept.2

/-- What every callback keeps: a node with a terminal action is never run, and the host owns a node
only where it has a hook. -/
structure Sound (st : LeafState) : Prop where
  terminal : (session.nodes node).terminal ≠ .runtime → st = ⟨.unowned, false⟩
  hosted : st.owner = .host → (session.hooks.tickLeaf || session.hooks.tickTypedLeaf) = true

/-- A tick of a node without a terminal action. -/
theorem tickLeaf_ticked (hruntime : (session.nodes node).terminal = .runtime)
    (hsound : Sound session node st) : Ticked st (tickLeaf session node replies st) := by
  unfold tickLeaf
  rw [hruntime]
  dsimp only
  split
  · rename_i hrefused
    refine refused_ticked ?_ _ nofun nofun
    simp only [Bool.and_eq_true, decide_eq_true_eq] at hrefused
    exact hrefused.2
  split
  · rename_i howner
    exact tickProcess_ticked _ (.inr howner)
  rename_i hprocess
  split
  · rename_i hhost
    simp only [Bool.and_eq_true, decide_eq_true_eq] at hhost
    refine tickHost_ticked session node replies ?_
    revert hhost hprocess
    cases st.owner <;> simp
  · rename_i hother
    refine tickFallback_ticked session node replies ?_
    have hnot : st.owner ≠ .host := by
      intro hhost
      refine hother ?_
      rw [hsound.hosted hhost, hhost]
      decide
    revert hnot hprocess
    cases st.owner <;> simp

/-- A node with a terminal action asks nobody. -/
theorem tickLeaf_terminal (hterminal : (session.nodes node).terminal ≠ .runtime) :
    (tickLeaf session node replies st).state = st ∧
      (tickLeaf session node replies st).dispatches = [] := by
  unfold tickLeaf
  split
  · exact ⟨rfl, rfl⟩
  · exact ⟨rfl, rfl⟩
  · split
    · exact ⟨rfl, rfl⟩
    split <;> exact ⟨rfl, rfl⟩
  · exact absurd ‹_› hterminal

theorem finalizeProcess_owner (replies : ProcessReplies) (howner : st.owner ≠ .host) :
    (finalizeProcess replies st).owner ≠ .host := by
  unfold finalizeProcess
  split
  · exact nofun
  split
  · exact howner
  · exact nofun

theorem tickProcess_owner (replies : ProcessReplies) (howner : st.owner ≠ .host) :
    (tickProcess replies st).state.owner ≠ .host := by
  have hdriver (st : LeafState) : (tickDriver replies st).state.owner ≠ .host := by
    unfold tickDriver
    dsimp only
    split
    · exact finalizeProcess_owner replies nofun
    split
    · exact nofun
    · exact finalizeProcess_owner replies nofun
  unfold tickProcess
  split
  · dsimp only
    split
    · exact finalizeProcess_owner replies howner
    · exact hdriver _
  · exact hdriver _

theorem tickCompatibility_owner (howner : st.owner ≠ .host) :
    (tickCompatibility session replies st).state.owner ≠ .host := by
  unfold tickCompatibility
  split
  · exact howner
  dsimp only
  split
  · exact howner
  split
  · exact howner
  split
  · exact howner
  · dsimp only
    split <;> exact nofun

theorem tickFallback_owner (howner : st.owner ≠ .host) :
    (tickFallback session node replies st).state.owner ≠ .host := by
  unfold tickFallback
  dsimp only
  split
  · exact tickCompatibility_owner session replies howner
  split
  · exact howner
  split
  · exact howner
  split
  · exact tickProcess_owner _ howner
  · exact tickCompatibility_owner session replies howner

/-- Where the host has no hook, it comes to own nothing. -/
theorem tickLeaf_hosted (hsound : Sound session node st)
    (howner : (tickLeaf session node replies st).state.owner = .host) :
    (session.hooks.tickLeaf || session.hooks.tickTypedLeaf) = true := by
  by_cases hst : st.owner = .host
  · exact hsound.hosted hst
  revert howner
  unfold tickLeaf
  split
  · exact fun howner => absurd howner hst
  · exact fun howner => absurd howner hst
  · split
    · exact fun howner => absurd howner hst
    split <;> exact fun howner => absurd howner hst
  split
  · exact fun howner => absurd howner hst
  split
  · exact fun howner => absurd howner (tickProcess_owner _ hst)
  split
  · rename_i hhost
    simp only [Bool.and_eq_true] at hhost
    exact fun _ => hhost.2
  · exact fun howner => absurd howner (tickFallback_owner session node replies hst)

theorem tickLeaf_sound (hsound : Sound session node st) :
    Sound session node (tickLeaf session node replies st).state where
  terminal hterminal := by
    rw [(tickLeaf_terminal session node _ hterminal).1]
    exact hsound.terminal hterminal
  hosted := tickLeaf_hosted session node replies hsound

/-! ## One halt -/

theorem haltLeaf_due (halts : HaltReplies) :
    (haltLeaf session halts st).2.count .halt + (haltLeaf session halts st).1.due ≤ st.due := by
  unfold haltLeaf
  dsimp only
  split
  · rw [finalizeProcess_due _ rfl]
    exact Nat.zero_le _
  split
  · rename_i hheld
    rw [Bool.or_eq_true, decide_eq_true_eq, decide_eq_true_eq] at hheld
    rw [LeafState.due, LeafState.due, if_pos hheld]
    exact dispatchHalt_count session
  · exact Nat.zero_le _

theorem haltLeaf_sound (halts : HaltReplies) (hsound : Sound session node st) :
    Sound session node (haltLeaf session halts st).1 where
  terminal hterminal := by
    rw [hsound.terminal hterminal]
    rfl
  hosted howner := by
    exfalso
    revert howner
    unfold haltLeaf
    dsimp only
    split
    · exact finalizeProcess_owner _ nofun
    split <;> exact nofun

end Tick

/-! ## Runs -/

section Runs

variable {session : LeafSession Number count} {node : Fin count}

theorem step_clear (states : LeafStates count) (code : Salts) (active : Fin count → Bool) :
    step session states (.clear code active) node =
      if code ≠ .ok then states node else cleared (active node) (states node) := by
  show (if code ≠ .ok then states else fun node => cleared (active node) (states node)) node = _
  split <;> rfl

/-- Every callback keeps a node sound. -/
theorem step_sound {states : LeafStates count} (callback : Callback count)
    (hsound : Sound session node (states node)) :
    Sound session node (step session states callback node) := by
  cases callback with
  | tick other replies =>
      by_cases hother : other = node
      · subst hother
        rw [step, Function.update_self]
        exact tickLeaf_sound session other _ hsound
      · rwa [step, Function.update_of_ne (Ne.symm hother)]
  | halt other replies =>
      by_cases hother : other = node
      · subst hother
        rw [step, Function.update_self]
        exact haltLeaf_sound session other replies hsound
      · rwa [step, Function.update_of_ne (Ne.symm hother)]
  | clear code active =>
      rw [step_clear]
      split
      · exact hsound
      · refine ⟨fun hterminal => ?_, fun howner => ?_⟩
        · rw [hsound.terminal hterminal]
          rfl
        · unfold cleared at howner
          dsimp only at howner
          split at howner <;> cases howner

theorem run_sound (callbacks : List (Callback count)) {states : LeafStates count}
    (hsound : Sound session node (states node)) :
    Sound session node (run session callbacks states node) := by
  induction callbacks generalizing states with
  | nil => exact hsound
  | cons callback rest ih => exact ih (step_sound callback hsound)

theorem initial_sound : Sound session node (initial node) := ⟨fun _ => rfl, nofun⟩

/-- A tick that begins an activation of a node. -/
def Begins (states : LeafStates count) (node : Fin count) : Callback count → Prop
  | .tick other _ => other = node ∧ (states node).owner = .unowned
  | _ => False

/-- A run in which no activation of a node begins. -/
def Continues (session : LeafSession Number count) (node : Fin count) :
    List (Callback count) → LeafStates count → Prop
  | [], _ => True
  | callback :: rest, states => ¬ Begins states node callback ∧
      Continues session node rest (step session states callback)

/-- A callback that begins nothing uses up what it halts. -/
theorem step_due {states : LeafStates count} (hsound : Sound session node (states node))
    (callback : Callback count) (hbegins : ¬ Begins states node callback) :
    (dispatched session states node callback).count .halt +
      (step session states callback node).due ≤ (states node).due := by
  cases callback with
  | tick other replies =>
      by_cases hother : other = node
      · subst hother
        have howned : (states other).owner ≠ .unowned := fun howner => hbegins ⟨rfl, howner⟩
        rw [dispatched, if_pos rfl, step, Function.update_self]
        by_cases hruntime : (session.nodes other).terminal = .runtime
        · have honce := (tickLeaf_ticked session other replies hruntime hsound).once
          rwa [if_neg howned] at honce
        · exact absurd (by rw [hsound.terminal hruntime]) howned
      · rw [dispatched, if_neg hother, step, Function.update_of_ne (Ne.symm hother)]
        exact Nat.le_of_eq (Nat.zero_add _)
  | halt other replies =>
      by_cases hother : other = node
      · subst hother
        rw [dispatched, if_pos rfl, step, Function.update_self]
        exact haltLeaf_due session replies
      · rw [dispatched, if_neg hother, step, Function.update_of_ne (Ne.symm hother)]
        exact Nat.le_of_eq (Nat.zero_add _)
  | clear code active =>
      rw [step_clear]
      split
      · exact Nat.le_of_eq (Nat.zero_add _)
      · refine Nat.le_trans (Nat.le_of_eq ?_) (Nat.zero_le _)
        show 0 + LeafState.due (cleared _ _) = 0
        unfold cleared LeafState.due
        dsimp only
        split <;> simp

/-- Within an activation what is halted was due. -/
theorem run_due (callbacks : List (Callback count)) {states : LeafStates count}
    (hsound : Sound session node (states node)) (hcontinues : Continues session node callbacks states) :
    (calls session node callbacks states).count .halt +
      (run session callbacks states node).due ≤ (states node).due := by
  induction callbacks generalizing states with
  | nil => exact Nat.le_of_eq (Nat.zero_add _)
  | cons callback rest ih =>
      have hstep := step_due hsound callback hcontinues.1
      have hrest := ih (step_sound callback hsound) hcontinues.2
      show (_ ++ _ : List Dispatch).count .halt + (run session rest _ node).due ≤ _
      rw [List.count_append]
      omega

theorem run_append (before after : List (Callback count)) (states : LeafStates count) :
    run session (before ++ after) states = run session after (run session before states) :=
  List.foldl_append

theorem calls_append (before after : List (Callback count)) (states : LeafStates count) :
    calls session node (before ++ after) states =
      calls session node before states ++ calls session node after (run session before states) := by
  induction before generalizing states with
  | nil => rfl
  | cons callback rest ih =>
      show _ ++ calls session node (rest ++ after) _ = (_ ++ _) ++ _
      rw [ih, List.append_assoc]
      rfl

/-- Callbacks that leave a node alone: those of other nodes, and a `clear_execution` that is
refused. -/
def Spares (node : Fin count) : Callback count → Prop
  | .tick other _ => other ≠ node
  | .halt other _ => other ≠ node
  | .clear code _ => code ≠ .ok

theorem step_spared {callback : Callback count} (hspares : Spares node callback)
    (states : LeafStates count) : step session states callback node = states node := by
  cases callback with
  | tick other replies => exact Function.update_of_ne (Ne.symm hspares) _ _
  | halt other replies => exact Function.update_of_ne (Ne.symm hspares) _ _
  | clear code active => exact (step_clear _ _ _).trans (if_pos hspares)

theorem dispatched_spared {callback : Callback count} (hspares : Spares node callback)
    (states : LeafStates count) : dispatched session states node callback = [] := by
  cases callback with
  | tick other replies => exact if_neg hspares
  | halt other replies => exact if_neg hspares
  | clear code active => rfl

theorem run_spared {callbacks : List (Callback count)}
    (hspares : ∀ callback ∈ callbacks, Spares node callback) (states : LeafStates count) :
    run session callbacks states node = states node := by
  induction callbacks generalizing states with
  | nil => rfl
  | cons callback rest ih =>
      obtain ⟨hfirst, hrest⟩ := List.forall_mem_cons.mp hspares
      exact (ih hrest _).trans (step_spared hfirst states)

/-- A node is as a tick left it, with no halt hook called since. -/
structure LeftRunning (session : LeafSession Number count) (node : Fin count)
    (callbacks earlier : List (Callback count)) (replies : TickReplies)
    (later : List (Callback count)) : Prop where
  split : callbacks = earlier ++ .tick node replies :: later
  code : (tickLeaf session node replies (run session earlier initial node)).code = .ok
  status : (tickLeaf session node replies (run session earlier initial node)).status = .running
  call : (tickLeaf session node replies (run session earlier initial node)).dispatches.getLast? =
      some .host ∨
    (tickLeaf session node replies (run session earlier initial node)).dispatches.getLast? =
      some .compatibility
  unhalted : (calls session node later (run session (earlier ++ [.tick node replies]) initial)).count
    .halt = 0

theorem LeftRunning.extend {callbacks earlier later : List (Callback count)} {replies : TickReplies}
    (hleft : LeftRunning session node callbacks earlier replies later) {callback : Callback count}
    (hquiet : (dispatched session (run session callbacks initial) node callback).count .halt = 0) :
    LeftRunning session node (callbacks ++ [callback]) earlier replies (later ++ [callback]) where
  split := by rw [hleft.split, List.append_assoc, List.cons_append]
  code := hleft.code
  status := hleft.status
  call := hleft.call
  unhalted := by
    rw [calls_append, List.count_append, hleft.unhalted, Nat.zero_add, ← run_append,
      List.append_assoc, List.singleton_append, ← hleft.split]
    show (_ ++ [] : List Dispatch).count .halt = 0
    rwa [List.append_nil]

theorem haltLeaf_state (halts : HaltReplies) (st : LeafState) :
    (haltLeaf session halts st).1.due = 0 := by
  unfold haltLeaf
  dsimp only
  split
  · exact finalizeProcess_due _ rfl
  split <;> rfl

/-- Where a halt hook is due, a tick left the node running. -/
theorem leftRunning_of_due (callbacks : List (Callback count))
    (hdue : (run session callbacks initial node).due ≠ 0) :
    ∃ earlier replies later, LeftRunning session node callbacks earlier replies later := by
  induction callbacks using List.reverseRecOn with
  | nil => exact absurd rfl hdue
  | append_singleton callbacks callback ih =>
      rw [run_append] at hdue
      change (step session (run session callbacks initial) callback node).due ≠ 0 at hdue
      by_cases hspares : Spares node callback
      · rw [step_spared hspares] at hdue
        obtain ⟨earlier, replies, later, hleft⟩ := ih hdue
        refine ⟨earlier, replies, _, hleft.extend ?_⟩
        rw [dispatched_spared hspares]
        rfl
      have hsound : Sound session node (run session callbacks initial node) :=
        run_sound callbacks initial_sound
      cases callback with
      | tick other replies =>
          obtain rfl : other = node := not_not.mp hspares
          rw [step, Function.update_self] at hdue
          by_cases hruntime : (session.nodes other).terminal = .runtime
          · have hticked := tickLeaf_ticked session other replies hruntime hsound
            rcases hticked.held hdue with ⟨hcode, hstatus⟩ | ⟨howner, hquiet⟩
            · refine ⟨callbacks, replies, [], rfl, hcode, hstatus, ?_, rfl⟩
              rw [← (hticked.running hcode hstatus).2]
              revert hdue
              unfold LeafState.due
              cases (tickLeaf session other replies (run session callbacks initial other)).state.owner
                <;> simp [LeafOwner.call]
            · have hbefore : (run session callbacks initial other).due ≠ 0 := by
                unfold LeafState.due at hdue ⊢
                rwa [howner] at hdue
              obtain ⟨earlier, first, later, hleft⟩ := ih hbefore
              refine ⟨earlier, first, _, hleft.extend ?_⟩
              rw [dispatched, if_pos rfl]
              exact hquiet
          · rw [(tickLeaf_terminal session other _ hruntime).1, hsound.terminal hruntime] at hdue
            exact absurd rfl hdue
      | halt other replies =>
          obtain rfl : other = node := not_not.mp hspares
          rw [step, Function.update_self] at hdue
          exact absurd (haltLeaf_state replies _) hdue
      | clear code active =>
          have hended : ¬ code ≠ .ok := hspares
          rw [step_clear, if_neg hended] at hdue
          refine absurd ?_ hdue
          unfold cleared LeafState.due
          dsimp only
          split <;> simp

end Runs

/-! ## Owners and halts -/

/-- A leaf activation has one owner and is halted at most once, in every run of callbacks from the
first on. -/
structure LeavesOwned (session : LeafSession Number count) : Prop where
  /-- A node that a tick left running is asked for by its owner alone in the next tick. -/
  resumed : ∀ (node : Fin count) (before middle : List (Callback count))
    (first second : TickReplies) (call : Dispatch),
    (tickLeaf session node first (run session before initial node)).code = .ok →
    (tickLeaf session node first (run session before initial node)).status = .running →
    (tickLeaf session node first (run session before initial node)).dispatches.getLast? = some call →
    (∀ callback ∈ middle, Spares node callback) →
    ∀ asked ∈ (tickLeaf session node second
        (run session (before ++ .tick node first :: middle) initial node)).dispatches,
      asked = call ∨ asked = .halt
  /-- A node that the process driver owns is run by the driver alone, and no halt hook is called for
  it. -/
  driven : ∀ (node : Fin count) (before rest : List (Callback count)) (replies : TickReplies),
    (run session before initial node).owner = .process →
    (∀ asked ∈ (tickLeaf session node replies (run session before initial node)).dispatches,
      asked = .process) ∧
    (Continues session node rest (run session before initial) →
      .halt ∉ calls session node rest (run session before initial))
  /-- Another owner is asked after the host only when nobody owns the node. -/
  declined : ∀ (node : Fin count) (before : List (Callback count)) (replies : TickReplies)
    (other : Dispatch),
    .host ∈ (tickLeaf session node replies (run session before initial node)).dispatches →
    other ∈ (tickLeaf session node replies (run session before initial node)).dispatches →
    other ≠ .host → other ≠ .halt → (run session before initial node).owner = .unowned
  /-- From the tick that begins an activation to the next such tick one halt hook is called at
  most. -/
  once : ∀ (node : Fin count) (before rest : List (Callback count)) (replies : TickReplies),
    (run session before initial node).owner = .unowned →
    Continues session node rest (run session (before ++ [.tick node replies]) initial) →
    (calls session node (.tick node replies :: rest) (run session before initial)).count .halt ≤ 1
  /-- No halt hook is called for an activation that has ended. -/
  ended : ∀ (node : Fin count) (before rest : List (Callback count)) (replies : TickReplies),
    (tickLeaf session node replies (run session before initial node)).code = .ok →
    (tickLeaf session node replies (run session before initial node)).status ≠ .running →
    Continues session node rest (run session (before ++ [.tick node replies]) initial) →
    .halt ∉ calls session node rest (run session (before ++ [.tick node replies]) initial)
  /-- A callback that halts finds the node as a tick of the host or of the compatibility dispatcher
  left it running, not halted since. -/
  earned : ∀ (node : Fin count) (before : List (Callback count)) (replies : HaltReplies),
    .halt ∈ (haltLeaf session replies (run session before initial node)).2 →
    ∃ earlier first later, LeftRunning session node before earlier first later

section Owned

variable (session : LeafSession Number count) {node : Fin count} {before rest : List (Callback count)}
  {replies : TickReplies}

theorem sound_of_run (before : List (Callback count)) :
    Sound session node (run session before initial node) := run_sound before initial_sound

/-- A node that is owned has no terminal action. -/
theorem runtime_of_owned (howned : (run session before initial node).owner ≠ .unowned) :
    (session.nodes node).terminal = .runtime := by
  by_contra hterminal
  rw [(sound_of_run session before).terminal hterminal] at howned
  exact howned rfl

/-- An owned node is asked for by its owner, and perhaps halted. -/
theorem asked_by_owner {call : Dispatch}
    (howner : (run session before initial node).owner.call = some call) :
    ∀ asked ∈ (tickLeaf session node replies (run session before initial node)).dispatches,
      asked = call ∨ asked = .halt := by
  intro asked hasked
  have howned : (run session before initial node).owner ≠ .unowned := by
    intro hunowned
    rw [hunowned] at howner
    cases howner
  have hticked := tickLeaf_ticked session node replies
    (runtime_of_owned session howned) (sound_of_run session before)
  rcases hticked.asks asked hasked with hhalt | hunowned | hsame
  · exact .inr hhalt
  · exact absurd hunowned howned
  · exact .inl (Option.some.inj (hsame.symm.trans howner))

/-- Where no halt is due none comes before the next activation. -/
theorem unhalted_of_due (hdue : (run session before initial node).due = 0)
    (hcontinues : Continues session node rest (run session before initial)) :
    .halt ∉ calls session node rest (run session before initial) := by
  have hrun := run_due rest (sound_of_run session before) hcontinues
  rw [hdue] at hrun
  exact List.count_eq_zero.mp (by omega)

theorem run_tick :
    run session (before ++ [.tick node replies]) initial node =
      (tickLeaf session node replies (run session before initial node)).state := by
  rw [run_append]
  exact Function.update_self ..

end Owned

theorem leaves_owned (session : LeafSession Number count) : LeavesOwned session where
  resumed node before middle first second call hcode hstatus hlast hmiddle := by
    have hsame : run session (before ++ .tick node first :: middle) initial node =
        run session (before ++ [.tick node first]) initial node := by
      rw [run_append, run_append]
      exact run_spared hmiddle _
    have hruntime : (session.nodes node).terminal = .runtime := by
      by_contra hterminal
      rw [(tickLeaf_terminal session node _ hterminal).2] at hlast
      cases hlast
    have hticked := tickLeaf_ticked session node first hruntime
      (sound_of_run session before)
    refine asked_by_owner session ?_
    rw [hsame, run_tick, (hticked.running hcode hstatus).2]
    exact hlast
  driven node before rest replies howner := by
    have hdue : (run session before initial node).due = 0 := by
      rw [LeafState.due, howner]
      decide
    have howned : (run session before initial node).owner ≠ .unowned := by
      rw [howner]
      decide
    refine ⟨fun asked hasked => ?_, unhalted_of_due session hdue⟩
    have hcall : (run session before initial node).owner.call = some .process := by
      rw [howner]
      rfl
    refine (asked_by_owner session hcall asked hasked).resolve_right ?_
    rintro rfl
    have honce := (tickLeaf_ticked session node replies
      (runtime_of_owned session howned) (sound_of_run session before)).once
    rw [if_neg howned, hdue] at honce
    exact List.count_eq_zero.mp (by omega) hasked
  declined node before replies other hhost hother hne hhalt := by
    by_contra howned
    have hticked := tickLeaf_ticked session node replies
      (runtime_of_owned session howned) (sound_of_run session before)
    have hfirst := ((hticked.asks _ hhost).resolve_left nofun).resolve_left howned
    have hsecond := ((hticked.asks _ hother).resolve_left hhalt).resolve_left howned
    exact hne (Option.some.inj (hsecond.symm.trans hfirst))
  once node before rest replies hunowned hcontinues := by
    have hrest := run_due rest (sound_of_run session (before ++ [.tick node replies])) hcontinues
    rw [run_tick, run_append] at hrest
    show ((dispatched session (run session before initial) node (.tick node replies)) ++
      calls session node rest _).count .halt ≤ 1
    rw [dispatched, if_pos rfl, List.count_append]
    change (calls session node rest (step session (run session before initial)
      (.tick node replies))).count .halt + _ ≤ _ at hrest
    by_cases hruntime : (session.nodes node).terminal = .runtime
    · have honce := (tickLeaf_ticked session node replies hruntime
        (sound_of_run session before)).once
      rw [if_pos hunowned] at honce
      omega
    · obtain ⟨hstate, hnone⟩ := tickLeaf_terminal session node replies hruntime
      have hdue : (run session before initial node).due = 0 := by
        rw [LeafState.due, hunowned]
        decide
      rw [hstate, hdue] at hrest
      rw [hnone]
      exact Nat.le_trans (Nat.le_of_eq (Nat.zero_add _)) (by omega)
  ended node before rest replies hcode hstatus hcontinues := by
    refine unhalted_of_due session ?_ hcontinues
    rw [run_tick]
    by_cases hruntime : (session.nodes node).terminal = .runtime
    · exact (tickLeaf_ticked session node replies hruntime
        (sound_of_run session before)).ended hcode hstatus
    · rw [(tickLeaf_terminal session node _ hruntime).1,
        (sound_of_run session before).terminal hruntime]
      rfl
  earned node before replies hhalt := by
    refine leftRunning_of_due before fun hdue => ?_
    have hhalts := @haltLeaf_due _ _ session (run session before initial node) replies
    rw [hdue] at hhalts
    exact List.count_eq_zero.mp (by omega) hhalt

end Praktor.Session.Ownership
