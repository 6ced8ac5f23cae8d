/-
# Leaves that do not sleep

Every leaf but a Sleep works on the store and on the buffers of the host.  It leaves the slots of the
sleeping leaves as they are, and it is done when it answers.
-/

import Praktor.Math.Stateful
import Praktor.Native.Ports

namespace Praktor.Native

open Praktor.Data Praktor.Math Praktor.Values
open Praktor.Runtime (NodeStatus)

variable {Number Regex : Type} {α : Type}

/-! ## Slots that stay -/

/-- The slots stay as they are, and so does the room of the buffers. -/
def SameSlots (host next : NativeHost Regex) : Prop :=
  next.sleepStates = host.sleepStates ∧ next.scratchCapacity = host.scratchCapacity

theorem sameSlots_frame : Stateful.Frame (@SameSlots Regex) :=
  ⟨fun _ => ⟨rfl, rfl⟩, fun hfirst hsecond =>
    ⟨hsecond.1.trans hfirst.1, hsecond.2.trans hfirst.2⟩⟩

theorem NativeHost.Scratched.sameSlots {host next : NativeHost Regex}
    (hnext : host.Scratched next) : SameSlots host next := by
  obtain ⟨scratch, rfl⟩ := hnext
  exact ⟨rfl, rfl⟩

/-- A computation that leaves the slots alone. -/
def Sleepless (program : LeafM Regex α) : Prop := Stateful.Keeps SameSlots program

/-- A leaf that leaves the slots alone and does not go on running. -/
def Settles (program : LeafM Regex NodeStatus) : Prop :=
  Sleepless program ∧ ∀ host, (LeafM.on program host).1 ≠ .ok .running

section Rules

variable {β : Type} {first : LeafM Regex α} {second : α → LeafM Regex β}

theorem Sleepless.bind (hfirst : Sleepless first) (hsecond : ∀ value, Sleepless (second value)) :
    Sleepless (first >>= second) := Stateful.Keeps.bind sameSlots_frame hfirst hsecond

theorem sleepless_pure (value : α) : Sleepless (pure value : LeafM Regex α) :=
  Stateful.Keeps.pure sameSlots_frame value

theorem sleepless_throw (code : Salts) : Sleepless (throw code : LeafM Regex α) :=
  Stateful.Keeps.throw sameSlots_frame code

theorem sleepless_get : Sleepless (get : LeafM Regex (NativeHost Regex)) :=
  Stateful.Keeps.get sameSlots_frame

theorem sleepless_read (buffer : Fin 5) : Sleepless (read buffer : LeafM Regex CString) :=
  fun host => sameSlots_frame.refl host

theorem sleepless_write (buffer : Fin 5) (text : CString) :
    Sleepless (write buffer text : LeafM Regex Unit) := fun _ => ⟨rfl, rfl⟩

theorem settles_pure {status : NodeStatus} (hstatus : status ≠ .running) :
    Settles (pure status : LeafM Regex NodeStatus) :=
  ⟨sleepless_pure status, fun _ hrunning => hstatus (Except.ok.inj hrunning)⟩

theorem settles_throw (code : Salts) : Settles (throw code : LeafM Regex NodeStatus) :=
  ⟨sleepless_throw code, fun _ hrunning => by cases hrunning⟩

theorem Settles.bind {second : α → LeafM Regex NodeStatus} (hfirst : Sleepless first)
    (hsecond : ∀ value, Settles (second value)) : Settles (first >>= second) := by
  refine ⟨hfirst.bind fun value => (hsecond value).1, fun host hrunning => ?_⟩
  rw [on_bind] at hrunning
  generalize LeafM.on first host = ran at hrunning
  obtain ⟨code | value, next⟩ := ran
  · cases hrunning
  · exact (hsecond value).2 next hrunning

/-- A leaf that reads its host first. -/
theorem settles_get {second : NativeHost Regex → LeafM Regex NodeStatus}
    (hsecond : ∀ host, SameSlots host (LeafM.on (second host) host).2 ∧
      (LeafM.on (second host) host).1 ≠ .ok .running) : Settles (get >>= second) := by
  refine ⟨fun host => ?_, fun host => ?_⟩
  · show SameSlots host (LeafM.on (get >>= second) host).2
    rw [on_bind, on_get]
    exact (hsecond host).1
  · rw [on_bind, on_get]
    exact (hsecond host).2

end Rules

/-! ## The leaves -/

section Leaves

variable (env : Environment Number Regex) (request : LeafRequest Number)

theorem sleepless_resolve (param : LeafValue Number) (out keyScratch : Fin 5) :
    Sleepless (resolve env param out keyScratch) :=
  fun host => (resolve_on env host param out keyScratch).scratched.sameSlots

theorem sleepless_port (name fallback : String) (out keyScratch : Fin 5) :
    Sleepless (port env request name fallback out keyScratch) :=
  fun host => (port_on env host request name fallback out keyScratch).scratched.sameSlots

theorem sleepless_cachedRegex (pattern : CString) : Sleepless (cachedRegex env pattern) := by
  intro host
  obtain ⟨cache, hcached⟩ := cachedRegex_on env host pattern
  show SameSlots host (LeafM.on (cachedRegex env pattern) host).2
  rw [hcached]
  exact ⟨rfl, rfl⟩

theorem sleepless_resolveInteger (param : Option (LeafValue Number)) (defaultValue : Int)
    (scratch : Fin 5) : Sleepless (resolveInteger env param defaultValue scratch) := by
  intro host
  obtain ⟨next, hscratched, -, hinteger⟩ := resolveInteger_on env host param defaultValue scratch
  show SameSlots host (LeafM.on (resolveInteger env param defaultValue scratch) host).2
  rw [hinteger]
  exact hscratched.sameSlots

theorem sleepless_lineFilter : Sleepless (lineFilter env request) := by
  unfold lineFilter
  cases parameter request "filter" with
  | none => exact sleepless_pure _
  | some param =>
      refine (sleepless_resolve env param 1 2).bind fun _ => ?_
      refine (sleepless_read 1).bind fun pattern => ?_
      split
      · exact sleepless_pure _
      refine (sleepless_cachedRegex env pattern).bind fun compiled => ?_
      split
      · exact sleepless_pure _
      · exact sleepless_pure _
      · exact sleepless_throw _

theorem settles_publish (refusal : ValueStatus → Salts) (key value : CString) :
    Settles (publish refusal key value : LeafM Regex NodeStatus) := by
  refine settles_get fun host => ?_
  split
  · exact ⟨⟨rfl, rfl⟩, fun hrunning => by cases hrunning⟩
  · exact ⟨⟨rfl, rfl⟩, fun hrunning => by cases hrunning⟩

theorem settles_tickSetVariable : Settles (tickSetVariable env request) := by
  unfold tickSetVariable
  split
  · exact settles_pure nofun
  refine Settles.bind (sleepless_resolve env _ 0 2) fun _ => ?_
  split
  · refine Settles.bind (sleepless_resolve env _ 1 2) fun _ => ?_
    refine Settles.bind (sleepless_read 0) fun key => ?_
    exact Settles.bind (sleepless_read 1) fun value => settles_publish _ key value
  split
  · exact settles_pure nofun
  refine Settles.bind (sleepless_resolve env _ 2 1) fun _ => ?_
  refine Settles.bind sleepless_get fun host => ?_
  split
  · exact settles_throw _
  · exact settles_pure nofun
  split
  · refine Settles.bind (sleepless_write 1 _) fun _ => ?_
    refine Settles.bind (sleepless_read 0) fun key => ?_
    exact Settles.bind (sleepless_read 1) fun value => settles_publish _ key value
  · exact settles_throw _

theorem sleepless_expectedCode : Sleepless (expectedCode env request) := by
  unfold expectedCode
  split
  · exact sleepless_pure _
  · exact sleepless_throw _
  · split
    · exact sleepless_pure _
    · exact sleepless_throw _
  · refine Sleepless.bind (fun host => ?_) fun _ => ?_
    · show SameSlots host (LeafM.on (tryCatch (resolve env (.string _) 1 2) _) host).2
      rw [on_tryCatch]
      have hresolved := sleepless_resolve env (.string ‹_›) 1 2 host
      change SameSlots host (LeafM.on (resolve env (.string _) 1 2) host).2 at hresolved
      generalize LeafM.on (resolve env (.string _) 1 2) host = ran at hresolved ⊢
      obtain ⟨code | value, next⟩ := ran
      · exact hresolved
      · exact hresolved
    · refine (sleepless_read 1).bind fun text => ?_
      split
      · exact sleepless_pure _
      · exact sleepless_throw _

theorem settles_tickCheckExitCode : Settles (tickCheckExitCode env request) := by
  unfold tickCheckExitCode
  refine Settles.bind (sleepless_port env request _ _ 0 2) fun _ => ?_
  refine Settles.bind (sleepless_expectedCode env request) fun expected => ?_
  refine Settles.bind sleepless_get fun host => ?_
  split
  · exact settles_pure nofun
  · refine Settles.bind (sleepless_write 1 _) fun _ => ?_
    refine Settles.bind (sleepless_read 1) fun text => ?_
    split
    · exact settles_throw _
    · refine settles_pure ?_
      split
      · exact nofun
      · exact nofun
  · exact settles_throw _

theorem settles_tickParseKeyValue : Settles (tickParseKeyValue env request) := by
  unfold tickParseKeyValue
  refine Settles.bind (sleepless_port env request _ _ 3 4) fun _ => ?_
  refine Settles.bind sleepless_get fun host => ?_
  split
  · exact settles_pure nofun
  · refine Settles.bind (sleepless_write 0 _) fun _ => ?_
    refine Settles.bind (sleepless_port env request _ _ 1 4) fun _ => ?_
    refine Settles.bind (sleepless_port env request _ _ 2 4) fun _ => ?_
    refine Settles.bind (sleepless_port env request _ _ 3 4) fun _ => ?_
    refine Settles.bind sleepless_get fun host => ?_
    split
    · exact settles_throw _
    · exact settles_throw _
    · refine Settles.bind (sleepless_write 4 _) fun _ => ?_
      refine Settles.bind (sleepless_read 3) fun key => ?_
      exact Settles.bind (sleepless_read 4) fun value => settles_publish _ key value
  · exact settles_throw _

theorem settles_tickParseRegex : Settles (tickParseRegex env request) := by
  unfold tickParseRegex
  refine Settles.bind (sleepless_port env request _ _ 0 2) fun _ => ?_
  refine Settles.bind sleepless_get fun host => ?_
  split
  · exact settles_pure nofun
  · refine Settles.bind (sleepless_write 1 _) fun _ => ?_
    refine Settles.bind (sleepless_port env request _ _ 3 2) fun _ => ?_
    refine Settles.bind (sleepless_read 3) fun pattern => ?_
    refine Settles.bind (sleepless_cachedRegex env pattern) fun compiled => ?_
    split
    · exact settles_pure nofun
    · exact settles_throw _
    refine Settles.bind (sleepless_resolveInteger env _ 1 2) fun group => ?_
    split
    · exact settles_pure nofun
    refine Settles.bind (sleepless_read 1) fun text => ?_
    split
    · exact settles_pure nofun
    · refine Settles.bind (sleepless_port env request _ _ 0 2) fun _ => ?_
      split
      · refine Settles.bind (sleepless_write 2 _) fun _ => ?_
        refine Settles.bind (sleepless_read 0) fun key => ?_
        exact Settles.bind (sleepless_read 2) fun value => settles_publish _ key value
      · refine Settles.bind sleepless_get fun host => ?_
        split
        · exact settles_throw _
        · refine Settles.bind (sleepless_read 1) fun text => ?_
          refine Settles.bind (sleepless_write 2 _) fun _ => ?_
          refine Settles.bind (sleepless_read 0) fun key => ?_
          exact Settles.bind (sleepless_read 2) fun value => settles_publish _ key value
    · exact settles_throw _
  · exact settles_throw _

theorem settles_tickParseJson : Settles (tickParseJson env request) := by
  unfold tickParseJson
  refine Settles.bind (sleepless_port env request _ _ 0 3) fun _ => ?_
  refine Settles.bind sleepless_get fun host => ?_
  split
  · exact settles_pure nofun
  · refine Settles.bind (sleepless_write 1 _) fun _ => ?_
    refine Settles.bind (sleepless_port env request _ _ 2 3) fun _ => ?_
    refine Settles.bind sleepless_get fun host => ?_
    refine Settles.bind (sleepless_read 2) fun path => ?_
    split
    · exact settles_throw _
    refine Settles.bind (sleepless_write 2 _) fun _ => ?_
    refine Settles.bind (sleepless_port env request _ _ 4 3) fun _ => ?_
    refine Settles.bind (sleepless_read 1) fun text => ?_
    split
    · exact settles_pure nofun
    refine Settles.bind (sleepless_read 2) fun selector => ?_
    split
    · exact settles_pure nofun
    split
    · exact settles_throw _
    refine Settles.bind sleepless_get fun host => ?_
    split
    · exact settles_throw _
    · exact Settles.bind (sleepless_read 4) fun key => settles_publish _ key _
  · exact settles_throw _
  · exact settles_throw _

theorem settles_tickParseLines : Settles (tickParseLines env request) := by
  unfold tickParseLines
  refine Settles.bind (sleepless_lineFilter env request) fun filter => ?_
  refine Settles.bind (sleepless_port env request _ _ 0 2) fun _ => ?_
  refine Settles.bind sleepless_get fun host => ?_
  split
  · exact settles_pure nofun
  · refine Settles.bind (sleepless_write 1 _) fun _ => ?_
    refine Settles.bind (sleepless_port env request _ _ 0 2) fun _ => ?_
    refine Settles.bind (sleepless_read 0) fun key => ?_
    refine Settles.bind sleepless_get fun host => ?_
    dsimp only
    by_cases hshort : host.scratchCapacity - key.length ≤ 6
    · rw [if_pos hshort]
      exact settles_throw _
    rw [if_neg hshort]
    refine Settles.bind (sleepless_write 2 _) fun _ => ?_
    split
    · exact settles_throw _
    refine Settles.bind (sleepless_write 1 _) fun _ => ?_
    refine settles_get fun host => ?_
    split
    · exact ⟨⟨rfl, rfl⟩, fun hrunning => by cases hrunning⟩
    · exact ⟨⟨rfl, rfl⟩, fun hrunning => by cases hrunning⟩
  · exact settles_throw _

end Leaves

end Praktor.Native
