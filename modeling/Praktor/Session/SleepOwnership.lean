/-
# Sleeping leaves of sessions

Sessions that share a native host reach it through their own callbacks only.  A slot is taken for a
node exactly as long as the session holds the host to own that node, so that no slot is left behind
by an error or a halt, and no session takes or frees a slot of another.
-/

import Praktor.Native.SleepRuns
import Praktor.Session.LeafOwnership

namespace Praktor.Session.Ownership

open Praktor.Data Praktor.Math Praktor.Values
open Praktor.Native (NativeHost Environment LeafRequest LeafM Sleeper Sleep Tabled)
open Praktor.Runtime (NodeStatus)

variable {Number Regex : Type}

/-! ## Requests -/

/-- A parameter as the host reads it: a text ends at its first NUL. -/
def nativeParameter (parameter : LeafParameter Number) : Native.LeafParameter Number where
  name := some parameter.name
  value :=
    match parameter.value with
    | .boolean value => .boolean value
    | .number value => .number value
    | .string text => .string (some (CString.ofBuffer text))

/-- `request`: a session names itself. -/
def leafRequest {count : Nat} (session : LeafSession Number count) (owner : Nat)
    (node : Fin count) : LeafRequest Number where
  sessionOwner := some owner
  nodeIndex := node
  action := (session.nodes node).action
  parameters := (session.nodes node).parameters.map nativeParameter
  inParallelBranch := session.branch node

/-- The status of a node that a hook leaves. -/
def leafStatus : NodeStatus → LeafStatus
  | .idle => .invalid
  | .running => .running
  | .success => .success
  | .failure => .failure

/-- What the native host answers in place of a hook. -/
def hostReply : Except Salts NodeStatus → Salts × LeafStatus
  | .ok status => (.ok, leafStatus status)
  | .error code => (code, .invalid)

/-- A call of a callback as it reaches the native host. -/
def reach (tick : NativeHost Regex → NativeHost Regex) (request : LeafRequest Number)
    (host : NativeHost Regex) : Dispatch → NativeHost Regex
  | .host => tick host
  | .halt => Native.haltTypedLeaf request host
  | _ => host

/-! ## Sessions that share a host -/

variable {count : Nat → Nat}

/-- The host, and the states of the nodes of every session. -/
structure Shared (Regex : Type) (count : Nat → Nat) where
  host : NativeHost Regex
  states : ∀ owner, LeafStates (count owner)

/-- The callbacks of the sessions, with the store as the host finds it, and the changes of the store
from outside. -/
inductive SharedCall (Number Regex : Type) (count : Nat → Nat)
  | tick (owner : Nat) (node : Fin (count owner)) (env : Environment Number Regex)
      (values : ValueStore) (replies : TickReplies)
  | halt (owner : Nat) (node : Fin (count owner)) (replies : HaltReplies)
  | store (values : ValueStore)

variable (sessions : ∀ owner, LeafSession Number (count owner))

/-- The state of a node is replaced. -/
def Shared.put (shared : Shared Regex count) (host : NativeHost Regex) (owner : Nat)
    (node : Fin (count owner)) (st : LeafState) : Shared Regex count :=
  ⟨host, Function.update shared.states owner (Function.update (shared.states owner) node st)⟩

/-- One callback. -/
def Shared.step (shared : Shared Regex count) :
    SharedCall Number Regex count → Shared Regex count
  | .tick owner node env values replies =>
      let request := leafRequest (sessions owner) owner node
      let host := { shared.host with values }
      let ticked := LeafM.on (Native.tickLeaf env request) host
      let outcome := tickLeaf (sessions owner) node { replies with host := hostReply ticked.1 }
        (shared.states owner node)
      shared.put (outcome.dispatches.foldl (reach (fun _ => ticked.2) request) host) owner node
        outcome.state
  | .halt owner node replies =>
      let request := leafRequest (sessions owner) owner node
      let outcome := haltLeaf (sessions owner) replies (shared.states owner node)
      shared.put (outcome.2.foldl (reach id request) shared.host) owner node outcome.1
  | .store values => { shared with host := { shared.host with values } }

/-- A run of callbacks. -/
def Shared.run (shared : Shared Regex count) (calls : List (SharedCall Number Regex count)) :
    Shared Regex count := calls.foldl (Shared.step sessions) shared

/-- Sessions that have not begun, on a host of which every slot is free. -/
def Shared.start (host : NativeHost Regex) : Shared Regex count := ⟨host, fun _ => initial⟩

/-- A node is asleep: a slot of the host is taken for it. -/
def Shared.Asleep (shared : Shared Regex count) (owner : Nat) (node : Fin (count owner)) : Prop :=
  ∃ sleep : Sleep, sleep.slot (owner, node) ∈ shared.host.sleepStates

/-! ## One callback -/

/-- The process driver runs nodes with the action of a shell only. -/
def LeafState.ShellOnly (st : LeafState) (action : CString) : Prop :=
  st.driver = true ∨ st.owner = .process → action = CString.literal "Shell"

section Leaf

variable {count : Nat} (session : LeafSession Number count) (node : Fin count)
  (replies : TickReplies) {st : LeafState}

/-- A tick that is not the host's makes no call to the host. -/
def Quiet (outcome : TickOutcome) : Prop := ∀ call ∈ outcome.dispatches, call ≠ .host ∧ call ≠ .halt

theorem tickProcess_quiet (replies : ProcessReplies) : Quiet (tickProcess replies st) := by
  have hprocess : ∀ call ∈ [Dispatch.process], call ≠ .host ∧ call ≠ .halt := by decide
  have hdriver (st : LeafState) : Quiet (tickDriver replies st) := by
    unfold tickDriver
    dsimp only
    split
    · exact hprocess
    split
    · exact hprocess
    · exact hprocess
  unfold tickProcess
  split
  · dsimp only
    split
    · exact hprocess
    · exact hdriver _
  · exact hdriver _

theorem tickCompatibility_quiet : Quiet (tickCompatibility session replies st) := by
  have hcall : ∀ call ∈ [Dispatch.compatibility], call ≠ .host ∧ call ≠ .halt := by decide
  have hnone : ∀ call ∈ ([] : List Dispatch), call ≠ .host ∧ call ≠ .halt := by decide
  unfold tickCompatibility
  split
  · exact hnone
  dsimp only
  split
  · exact hcall
  split
  · exact hcall
  split
  · exact hcall
  · exact hcall

theorem tickFallback_quiet : Quiet (tickFallback session node replies st) := by
  have hnone : ∀ call ∈ ([] : List Dispatch), call ≠ .host ∧ call ≠ .halt := by decide
  unfold tickFallback
  dsimp only
  split
  · exact tickCompatibility_quiet session replies
  split
  · exact hnone
  split
  · exact hnone
  split
  · exact tickProcess_quiet _
  · exact tickCompatibility_quiet session replies

theorem tickCompatibility_shell {action : CString} (hshell : st.ShellOnly action) :
    (tickCompatibility session replies st).state.ShellOnly action := by
  unfold tickCompatibility
  split
  · exact hshell
  dsimp only
  split
  · exact hshell
  split
  · exact hshell
  split
  · exact hshell
  · intro hdriver
    refine hshell (hdriver.imp id fun howner => ?_)
    revert howner
    dsimp only
    split <;> exact nofun

theorem tickFallback_shell (hshell : st.ShellOnly (session.nodes node).action) :
    (tickFallback session node replies st).state.ShellOnly (session.nodes node).action := by
  unfold tickFallback
  dsimp only
  split
  · exact tickCompatibility_shell session replies hshell
  split
  · exact hshell
  split
  · exact hshell
  split
  · rename_i haction
    exact fun _ => haction
  · exact tickCompatibility_shell session replies hshell

theorem tickLeaf_shell (hshell : st.ShellOnly (session.nodes node).action) :
    (tickLeaf session node replies st).state.ShellOnly (session.nodes node).action := by
  unfold tickLeaf
  split
  · exact hshell
  · exact hshell
  · split
    · exact hshell
    split
    · exact hshell
    · exact hshell
  split
  · exact hshell
  split
  · rename_i howner
    exact fun _ => hshell (.inr howner)
  split
  · unfold tickHost
    dsimp only
    split
    · intro hdriver
      refine hshell (hdriver.imp id fun howner => ?_)
      revert howner
      dsimp only
      split <;> exact nofun
    split
    · exact fun hdriver => hshell (hdriver.imp id nofun)
    · exact tickFallback_shell session node replies hshell
  · exact tickFallback_shell session node replies hshell

theorem haltLeaf_shell {action : CString} (halts : HaltReplies) (hshell : st.ShellOnly action) :
    (haltLeaf session halts st).1.ShellOnly action := by
  unfold haltLeaf
  dsimp only
  split
  · rename_i hdriver
    refine fun _ => hshell ?_
    rw [Bool.or_eq_true, decide_eq_true_eq, Bool.and_eq_true] at hdriver
    exact hdriver.symm.imp And.left id
  split
  · exact fun hdriver => hshell (hdriver.imp id nofun)
  · exact fun hdriver => hshell (hdriver.imp id nofun)

/-! ## One leaf and its slot -/

section Slot

variable {host : NativeHost Regex} {request : LeafRequest Number} {table : SlotTable Sleeper Sleep}

/-- Calls that are not the host's do not reach it. -/
theorem reach_quiet {calls : List Dispatch} (hquiet : ∀ call ∈ calls, call ≠ .host ∧ call ≠ .halt)
    (tick : NativeHost Regex → NativeHost Regex) :
    calls.foldl (reach tick request) host = host := by
  induction calls with
  | nil => rfl
  | cons call rest ih =>
      have hcall := hquiet call List.mem_cons_self
      have hsame : reach tick request host call = host := by
        cases call with
        | host => exact absurd rfl hcall.1
        | halt => exact absurd rfl hcall.2
        | compatibility => rfl
        | process => rfl
      rw [List.foldl_cons, hsame]
      exact ih fun other hother => hquiet other (List.mem_cons_of_mem _ hother)

/-- The slot of a leaf after a callback: taken exactly when the host owns the leaf, and no other slot
is moved. -/
structure Settled (request : LeafRequest Number) (key : Sleeper) (table : SlotTable Sleeper Sleep)
    (host : NativeHost Regex) (st : LeafState) : Prop where
  kept : ∃ next, Tabled next host.sleepStates ∧ (next.lookup key ≠ none ↔ st.owner = .host) ∧
    (∀ other, other ≠ key → next.lookup other = table.lookup other) ∧
    (next.lookup key ≠ none → table.lookup key ≠ none ∨ request.action.bytes = ascii "Sleep")

theorem Settled.same {key : Sleeper} (htabled : Tabled table host.sleepStates)
    (howned : table.lookup key ≠ none ↔ st.owner = .host) : Settled request key table host st :=
  ⟨table, htabled, howned, fun _ _ => rfl, .inl⟩

variable {session node} {owner : Nat}

/-- A host that answers with a status decides who owns the leaf. -/
theorem tickHost_answered {status : LeafStatus} (hhost : replies.host = (.ok, status))
    (hvalid : validStatus status = true) :
    tickHost session node replies st =
      ⟨{ st with owner := if status = .running then .host else .unowned }, .ok, status, [.host]⟩ := by
  unfold tickHost
  rw [hhost]
  dsimp only
  split
  · rfl
  · rename_i hrefused
    exact absurd (by rw [hvalid]; rfl) hrefused

/-- A host that fails is told to halt. -/
theorem tickHost_refused {code : Salts} {status : LeafStatus} (hhost : replies.host = (code, status))
    (hrefused : code = .ok → validStatus status = false)
    (hfailure : code ≠ .enotsup ∨ st.owner = .host) :
    (tickHost session node replies st).state = { st with owner := .unowned } ∧
      (tickHost session node replies st).dispatches = .host :: dispatchHalt session := by
  unfold tickHost
  rw [hhost]
  dsimp only
  split
  · rename_i hvalid
    rw [Bool.and_eq_true, decide_eq_true_eq] at hvalid
    rw [hrefused hvalid.1] at hvalid
    cases hvalid.2
  split
  · exact ⟨rfl, rfl⟩
  · rename_i hdeclined
    rw [Bool.or_eq_true, decide_eq_true_eq, decide_eq_true_eq] at hdeclined
    exact absurd hfailure hdeclined

/-- A host that has no such action leaves the leaf to the other paths. -/
theorem tickHost_declined {status : LeafStatus} (hhost : replies.host = (.enotsup, status))
    (howner : st.owner ≠ .host) :
    (tickHost session node replies st).state = (tickFallback session node replies st).state ∧
      (tickHost session node replies st).dispatches =
        .host :: (tickFallback session node replies st).dispatches := by
  unfold tickHost
  rw [hhost]
  dsimp only
  split
  · rename_i hvalid
    rw [Bool.and_eq_true, decide_eq_true_eq] at hvalid
    cases hvalid.1
  split
  · rename_i hfailure
    rw [Bool.or_eq_true, decide_eq_true_eq, decide_eq_true_eq] at hfailure
    exact absurd hfailure (not_or.mpr ⟨fun hne => hne rfl, howner⟩)
  · exact ⟨rfl, rfl⟩

/-- A tick of the host, and what the session makes of it. -/
theorem tickHost_settled (hhooks : session.hooks.haltTypedLeaf = true)
    (env : Environment Number Regex) (htabled : Tabled table host.sleepStates)
    (howned : table.lookup (owner, node.val) ≠ none ↔ st.owner = .host)
    (hreply : replies.host =
      hostReply (LeafM.on (Native.tickLeaf env (leafRequest session owner node)) host).1) :
    Settled (leafRequest session owner node) (owner, node.val) table
      ((tickHost session node replies st).dispatches.foldl
        (reach (fun _ => (LeafM.on (Native.tickLeaf env (leafRequest session owner node)) host).2)
          (leafRequest session owner node)) host) (tickHost session node replies st).state := by
  have hkey : (leafRequest session owner node).sleeper = some (owner, node.val) := rfl
  obtain ⟨next, hnext, htick⟩ :=
    Native.tickLeaf_tabled env (leafRequest session owner node) htabled
  obtain ⟨hrunning, hdone, hfailed, hothers, hsleep⟩ := htick.lookup_spec hkey
  generalize (LeafM.on (Native.tickLeaf env (leafRequest session owner node)) host).1 = answer
    at hreply hrunning hdone hfailed
  generalize (LeafM.on (Native.tickLeaf env (leafRequest session owner node)) host).2 = ticked
    at hnext ⊢
  -- a host that failed has its slot freed by the halt that follows
  have hhalted : ∀ {outcome : TickOutcome}, outcome.state = { st with owner := .unowned } ∧
      outcome.dispatches = .host :: dispatchHalt session →
      Settled (leafRequest session owner node) (owner, node.val) table
        (outcome.dispatches.foldl (reach (fun _ => ticked) (leafRequest session owner node)) host)
        outcome.state := by
    rintro outcome ⟨hstate, hcalls⟩
    have hhalt : dispatchHalt session = [.halt] := by
      unfold dispatchHalt
      rw [if_pos hhooks]
    rw [hstate, hcalls, hhalt]
    refine ⟨next.erase (owner, node.val), Native.haltTypedLeaf_tabled hnext hkey, ?_, ?_, ?_⟩
    · rw [SlotTable.lookup_erase, Function.update_self]
      exact iff_of_false (fun hne => hne rfl) nofun
    · intro other hother
      rw [SlotTable.lookup_erase, Function.update_of_ne hother, hothers other hother]
    · rw [SlotTable.lookup_erase, Function.update_self]
      exact fun hne => absurd rfl hne
  cases answer with
  | ok status =>
      by_cases hvalid : validStatus (leafStatus status) = true
      · rw [tickHost_answered replies hreply hvalid]
        refine ⟨next, hnext, ?_, hothers, hsleep⟩
        by_cases hstatus : status = .running
        · subst hstatus
          exact iff_of_true (hrunning rfl) rfl
        · have hnot : leafStatus status ≠ .running := by
            cases status with
            | running => exact absurd rfl hstatus
            | _ => exact nofun
          dsimp only
          rw [if_neg hnot, hdone status rfl hstatus]
          exact iff_of_false (fun hne => hne rfl) nofun
      · exact hhalted (tickHost_refused replies hreply
          (fun _ => Bool.eq_false_of_not_eq_true hvalid) (.inl nofun))
  | error code =>
      by_cases hfailure : code ≠ .enotsup ∨ st.owner = .host
      · exact hhalted (tickHost_refused replies hreply (fun _ => rfl) hfailure)
      · rw [not_or, not_not] at hfailure
        obtain ⟨rfl, howner⟩ := hfailure
        obtain ⟨hstate, hcalls⟩ := tickHost_declined replies hreply howner
        rw [hstate, hcalls, List.foldl_cons,
          reach_quiet (tickFallback_quiet session node replies)]
        refine ⟨next, hnext, ?_, hothers, hsleep⟩
        rw [hfailed _ rfl, howned]
        exact iff_of_false howner (tickFallback_owner session node replies howner)

/-- `tick_leaf` of a session, on the host that its hooks belong to. -/
theorem tickLeaf_settled (hticks : session.hooks.tickTypedLeaf = true)
    (hhooks : session.hooks.haltTypedLeaf = true) (env : Environment Number Regex)
    (htabled : Tabled table host.sleepStates)
    (howned : table.lookup (owner, node.val) ≠ none ↔ st.owner = .host)
    (hreply : replies.host =
      hostReply (LeafM.on (Native.tickLeaf env (leafRequest session owner node)) host).1) :
    Settled (leafRequest session owner node) (owner, node.val) table
      ((tickLeaf session node replies st).dispatches.foldl
        (reach (fun _ => (LeafM.on (Native.tickLeaf env (leafRequest session owner node)) host).2)
          (leafRequest session owner node)) host) (tickLeaf session node replies st).state := by
  have hother : ∀ {outcome : TickOutcome}, Quiet outcome → st.owner ≠ .host →
      outcome.state.owner ≠ .host →
      Settled (leafRequest session owner node) (owner, node.val) table
        (outcome.dispatches.foldl
          (reach (fun _ => (LeafM.on (Native.tickLeaf env (leafRequest session owner node)) host).2)
            (leafRequest session owner node)) host) outcome.state := by
    intro outcome hquiet hbefore hafter
    rw [reach_quiet hquiet]
    refine .same htabled (howned.trans ?_)
    exact iff_of_false hbefore hafter
  unfold tickLeaf
  split
  · exact .same htabled howned
  · exact .same htabled howned
  · split
    · exact .same htabled howned
    split
    · exact .same htabled howned
    · exact .same htabled howned
  split
  · exact .same htabled howned
  split
  · rename_i howner
    have hnot : st.owner ≠ .host := by
      rw [howner]
      decide
    exact hother (tickProcess_quiet _) hnot (tickProcess_owner _ hnot)
  split
  · exact tickHost_settled replies hhooks env htabled howned hreply
  · rename_i hcompatibility
    have howner : st.owner = .compatibility := by
      by_contra hne
      exact hcompatibility (by simp [hne, hticks])
    have hnot : st.owner ≠ .host := by
      rw [howner]
      decide
    exact hother (tickFallback_quiet session node replies) hnot
      (tickFallback_owner session node replies hnot)

/-- `halt_leaf` of a session. -/
theorem haltLeaf_settled (hhooks : session.hooks.haltTypedLeaf = true) (halts : HaltReplies)
    (htabled : Tabled table host.sleepStates)
    (howned : table.lookup (owner, node.val) ≠ none ↔ st.owner = .host)
    (hsleeps : table.lookup (owner, node.val) ≠ none →
      (session.nodes node).action.bytes = ascii "Sleep")
    (hshell : st.ShellOnly (session.nodes node).action) :
    Settled (leafRequest session owner node) (owner, node.val) table
      ((haltLeaf session halts st).2.foldl (reach id (leafRequest session owner node)) host)
      (haltLeaf session halts st).1 := by
  have hkey : (leafRequest session owner node).sleeper = some (owner, node.val) := rfl
  -- a node that sleeps is no shell, so the driver is not there
  have hdriver : st.owner = .host → st.driver = false := by
    intro howner
    by_contra hthere
    have haction := hsleeps (howned.mpr howner)
    rw [hshell (.inl (by simpa using hthere))] at haction
    revert haction
    decide
  unfold haltLeaf
  dsimp only
  split
  · rename_i hprocess
    rw [Bool.or_eq_true, decide_eq_true_eq, Bool.and_eq_true] at hprocess
    have hnot : st.owner ≠ .host := by
      intro howner
      rcases hprocess with howner' | ⟨hthere, -⟩
      · rw [howner] at howner'
        cases howner'
      · rw [hdriver howner] at hthere
        cases hthere
    refine .same htabled (howned.trans (iff_of_false hnot ?_))
    exact finalizeProcess_owner _ nofun
  split
  · have hcalls : dispatchHalt session = [.halt] := by
      unfold dispatchHalt
      rw [if_pos hhooks]
    rw [hcalls]
    refine ⟨table.erase (owner, node.val), Native.haltTypedLeaf_tabled htabled hkey, ?_, ?_, ?_⟩
    · rw [SlotTable.lookup_erase, Function.update_self]
      exact iff_of_false (fun hne => hne rfl) nofun
    · intro other hother
      rw [SlotTable.lookup_erase, Function.update_of_ne hother]
    · rw [SlotTable.lookup_erase, Function.update_self]
      exact fun hne => absurd rfl hne
  · rename_i hheld
    rw [Bool.or_eq_true, decide_eq_true_eq, not_or, decide_eq_true_eq] at hheld
    exact .same htabled (howned.trans (iff_of_false hheld.1 nofun))

end Slot

end Leaf

/-! ## Runs -/

section Runs

variable {sessions} {shared : Shared Regex count}

/-- What every callback keeps: the slots are those of the nodes that the host owns. -/
structure Paired (sessions : ∀ owner, LeafSession Number (count owner))
    (shared : Shared Regex count) (table : SlotTable Sleeper Sleep) : Prop where
  tabled : Tabled table shared.host.sleepStates
  owned : ∀ owner (node : Fin (count owner)),
    table.lookup (owner, node.val) ≠ none ↔ (shared.states owner node).owner = .host
  sleeps : ∀ owner (node : Fin (count owner)), table.lookup (owner, node.val) ≠ none →
    ((sessions owner).nodes node).action.bytes = ascii "Sleep"
  shells : ∀ owner (node : Fin (count owner)),
    (shared.states owner node).ShellOnly ((sessions owner).nodes node).action

theorem paired_put {table : SlotTable Sleeper Sleep} {host : NativeHost Regex} {owner : Nat}
    {node : Fin (count owner)} {st : LeafState} (hpaired : Paired sessions shared table)
    (hsettled : Settled (leafRequest (sessions owner) owner node) (owner, node.val) table host st)
    (hshell : st.ShellOnly ((sessions owner).nodes node).action) :
    ∃ next, Paired sessions (shared.put host owner node st) next := by
  obtain ⟨next, hnext, howned, hothers, hsleep⟩ := hsettled
  have hstates : ∀ other (place : Fin (count other)),
      (other, place.val) ≠ (owner, node.val) →
      (shared.put host owner node st).states other place = shared.states other place := by
    intro other place hne
    unfold Shared.put
    dsimp only
    by_cases hother : other = owner
    · subst hother
      rw [Function.update_self, Function.update_of_ne]
      rintro rfl
      exact hne rfl
    · rw [Function.update_of_ne hother]
  have hself : (shared.put host owner node st).states owner node = st := by
    unfold Shared.put
    dsimp only
    rw [Function.update_self, Function.update_self]
  have hcases : ∀ other (place : Fin (count other)), (other, place.val) = (owner, node.val) →
      ∃ hsame : other = owner, hsame ▸ place = node := by
    intro other place heq
    obtain ⟨rfl, hplace⟩ := Prod.mk.inj heq
    exact ⟨rfl, Fin.ext hplace⟩
  refine ⟨next, hnext, fun other place => ?_, fun other place hne => ?_, fun other place => ?_⟩
  · by_cases heq : (other, place.val) = (owner, node.val)
    · obtain ⟨rfl, rfl⟩ := hcases other place heq
      rw [hself]
      exact howned
    · rw [hothers _ heq, hstates other place heq]
      exact hpaired.owned other place
  · by_cases heq : (other, place.val) = (owner, node.val)
    · obtain ⟨rfl, rfl⟩ := hcases other place heq
      rcases hsleep hne with hbefore | haction
      · exact hpaired.sleeps other place hbefore
      · exact haction
    · rw [hothers _ heq] at hne
      exact hpaired.sleeps other place hne
  · by_cases heq : (other, place.val) = (owner, node.val)
    · obtain ⟨rfl, rfl⟩ := hcases other place heq
      rw [hself]
      exact hshell
    · rw [hstates other place heq]
      exact hpaired.shells other place

/-- Every session reaches its leaves through the hooks of the native host. -/
structure Hosted (sessions : ∀ owner, LeafSession Number (count owner)) : Prop where
  ticks : ∀ owner, (sessions owner).hooks.tickTypedLeaf = true
  halts : ∀ owner, (sessions owner).hooks.haltTypedLeaf = true

theorem step_paired {table : SlotTable Sleeper Sleep} (hhosted : Hosted sessions)
    (hpaired : Paired sessions shared table) (call : SharedCall Number Regex count) :
    ∃ next, Paired sessions (shared.step sessions call) next := by
  cases call with
  | tick owner node env values replies =>
      refine paired_put hpaired ?_ (tickLeaf_shell (sessions owner) node _ (hpaired.shells owner node))
      exact tickLeaf_settled _ (hhosted.ticks owner) (hhosted.halts owner) env hpaired.tabled
        (hpaired.owned owner node) rfl
  | halt owner node replies =>
      refine paired_put hpaired ?_ (haltLeaf_shell (sessions owner) _ (hpaired.shells owner node))
      exact haltLeaf_settled (hhosted.halts owner) _ hpaired.tabled (hpaired.owned owner node)
        (hpaired.sleeps owner node) (hpaired.shells owner node)
  | store values =>
      exact ⟨table, hpaired.tabled, hpaired.owned, hpaired.sleeps, hpaired.shells⟩

theorem start_paired {host : NativeHost Regex} (hrested : host.Rested) :
    Paired sessions (Shared.start host) (SlotTable.blank host.sleepStates.length) := by
  refine ⟨Native.tabled_blank hrested, fun owner node => ?_, fun owner node hne => ?_,
    fun owner node hdriver => ?_⟩
  · rw [SlotTable.lookup_blank]
    exact iff_of_false (fun hne => hne rfl) nofun
  · rw [SlotTable.lookup_blank] at hne
    exact absurd rfl hne
  · rcases hdriver with hdriver | hdriver
    · cases hdriver
    · cases hdriver

theorem run_paired {table : SlotTable Sleeper Sleep} (hhosted : Hosted sessions)
    (hpaired : Paired sessions shared table) (calls : List (SharedCall Number Regex count)) :
    ∃ next, Paired sessions (shared.run sessions calls) next := by
  induction calls generalizing shared table with
  | nil => exact ⟨table, hpaired⟩
  | cons call rest ih =>
      obtain ⟨next, hnext⟩ := step_paired hhosted hpaired call
      exact ih hnext

end Runs

/-- Milliseconds at a fixed time, and nothing else. -/
def clockEnvironment : Environment Nat Unit where
  isfinite _ := true
  format _ := CString.literal ""
  toInt value := some value
  strtod _ := none
  zero := 0
  multiply value factor := value * factor
  milliseconds value := some value
  compile _ := .ok ()
  captureCount _ := 0
  searchGroup _ _ _ := (.noMatch, ⟨0, 0, false⟩)
  parse _ := none
  pathGet _ _ := none
  serialize _ := none
  now := 5

/-- A session of one leaf, which sleeps for ten milliseconds. -/
def sleepSession : LeafSession Nat 1 where
  hooks := ⟨false, true, false, true, true, false⟩
  nodes _ :=
    { tree := { parentIndex := none, kind := .leaf }
      action := CString.literal "Sleep"
      parameters := [⟨CString.literal "duration", .number 10⟩] }
  branch _ := false

end Praktor.Session.Ownership
