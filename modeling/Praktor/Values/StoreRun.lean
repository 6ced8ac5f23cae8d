/-
# Stores behind handles

The callers of the store hold handles.  A handle may be null, or have no implementation
yet; the public functions check both before they touch a store.  `StoreOps` lists what they
need of an implementation, and `step` serves one call.  It runs on memory and on maps.

The main result: on memory and on maps every sequence of calls gets the same replies, and
every memory that is reached denotes its map.  From this the bounds of a store, what `get`
and `contains` answer, when `set` finds no room, and that a clone is on its own.
-/

import Praktor.Values.StoreRefinement

namespace Praktor.Values

open Praktor.Data Praktor.Math

/-- The calls of the store; a pointer is `none` when it is null.  A null array of writes
comes with a positive count. -/
inductive StoreCall
  | init (store : Option Nat) (limits : StoreLimits)
  | clone (destination source : Option Nat)
  | replaceClone (destination source : Option Nat)
  | destroy (store : Option Nat)
  | set (store : Option Nat) (key value : Option CString)
  | setMany (store : Option Nat) (writes : Option (List (Option CString × Option CString)))
  | get (store : Option Nat) (key : Option CString) (capacity : Option Nat) (hasSize : Bool)
  | contains (store : Option Nat) (key : Option CString) (hasResult : Bool)
  | erase (store : Option Nat) (key : Option CString)
  | size (store : Option Nat)
  deriving DecidableEq

/-- The handle a call may change. -/
def StoreCall.target : StoreCall → Option Nat
  | .init store _ => store
  | .clone destination _ => destination
  | .replaceClone destination _ => destination
  | .destroy store => store
  | .set store _ _ => store
  | .setMany store _ => store
  | .erase store _ => store
  | .get _ _ _ _ => none
  | .contains _ _ _ => none
  | .size _ => none

/-- What a call returns and what it writes through its result pointers. -/
structure StoreReply where
  status : ValueStatus
  size : Option Nat := none
  bytes : Option Bytes := none
  found : Option Bool := none
  deriving DecidableEq, Repr

/-- An implementation of the store. -/
structure StoreOps (σ : Type) where
  limits : σ → StoreLimits
  init : StoreLimits → Except ValueStatus σ
  clone : σ → Except ValueStatus σ
  set : σ → Option CString → Option CString → σ × ValueStatus
  setMany : σ → List (Option CString × Option CString) → σ × ValueStatus
  get : σ → Option CString → Option Nat → ValueStatus × Option Nat × Option Bytes
  contains : σ → Option CString → Except ValueStatus Bool
  erase : σ → Option CString → σ × ValueStatus
  size : σ → Nat

/-- The implementations behind the handles of a program. -/
abbrev Handles (σ : Type) : Type := Nat → Option σ

namespace StoreOps

variable {σ τ : Type} (ops : StoreOps σ) (handles : Handles σ)

/-- `store_impl`, with the handle it was reached by. -/
def storeImpl (handles : Handles σ) (store : Option Nat) : Option (Nat × σ) :=
  store.bind fun handle => (handles handle).map fun impl => (handle, impl)

/-- Install a new implementation. -/
def install (handles : Handles σ) (handle : Nat) : Except ValueStatus σ → Handles σ × StoreReply
  | .error status => (handles, { status := status })
  | .ok impl => (Function.update handles handle (some impl), { status := .ok })

/-- A call that changes one store. -/
def change (handles : Handles σ) (store : Option Nat) (operation : σ → σ × ValueStatus) :
    Handles σ × StoreReply :=
  match storeImpl handles store with
  | none => (handles, { status := .einval })
  | some (handle, impl) =>
      (Function.update handles handle (some (operation impl).1), { status := (operation impl).2 })

/-- A call that reads one store. -/
def consult (handles : Handles σ) (store : Option Nat) (missing : StoreReply)
    (answer : σ → StoreReply) : Handles σ × StoreReply :=
  match storeImpl handles store with
  | none => (handles, missing)
  | some (_, impl) => (handles, answer impl)

/-- Serve one call. -/
def step (call : StoreCall) : Handles σ × StoreReply :=
  match call with
  | .init none _ => (handles, { status := .einval })
  | .init (some handle) limits =>
      if (handles handle).isSome then (handles, { status := .einval })
      else install handles handle (ops.init limits)
  | .clone destination source =>
      match destination, storeImpl handles source with
      | some destination, some (source, impl) =>
          if destination = source ∨ (handles destination).isSome then
            (handles, { status := .einval })
          else install handles destination (ops.clone impl)
      | _, _ => (handles, { status := .einval })
  | .replaceClone destination source =>
      match storeImpl handles destination, storeImpl handles source with
      | some (destination, old), some (source, impl) =>
          if destination = source ∨ ops.limits old ≠ ops.limits impl then
            (handles, { status := .einval })
          else install handles destination (ops.clone impl)
      | _, _ => (handles, { status := .einval })
  | .destroy none => (handles, { status := .ok })
  | .destroy (some handle) => (Function.update handles handle none, { status := .ok })
  | .set store key value => change handles store fun impl => ops.set impl key value
  | .setMany _ none => (handles, { status := .einval })
  | .setMany store (some writes) => change handles store fun impl => ops.setMany impl writes
  | .get store key capacity hasSize =>
      if hasSize then
        consult handles store { status := .einval } fun impl =>
          ⟨(ops.get impl key capacity).1, (ops.get impl key capacity).2.1,
            (ops.get impl key capacity).2.2, none⟩
      else (handles, { status := .einval })
  | .contains store key hasResult =>
      if hasResult then
        consult handles store { status := .einval } fun impl =>
          match ops.contains impl key with
          | .error status => { status := status }
          | .ok found => { status := .ok, found := some found }
      else (handles, { status := .einval })
  | .erase store key => change handles store fun impl => ops.erase impl key
  | .size store =>
      consult handles store { status := .ok, size := some 0 } fun impl =>
        { status := .ok, size := some (ops.size impl) }

/-- The handles of a program after a list of calls. -/
def after (calls : List StoreCall) : Handles σ := drive ops.step (fun _ => none) calls

/-! ## One step on two implementations -/

/-- The two halves of a result agree. -/
def Agree (related : σ → τ → Prop) (first : σ × ValueStatus) (second : τ × ValueStatus) : Prop :=
  related first.1 second.1 ∧ first.2 = second.2

/-- Every operation keeps two implementations related and answers alike. -/
structure Simulates (ops : StoreOps σ) (ops' : StoreOps τ) (related : σ → τ → Prop) : Prop where
  limits : ∀ impl impl', related impl impl' → ops.limits impl = ops'.limits impl'
  init : ∀ limits, (∃ status, ops.init limits = .error status ∧ ops'.init limits = .error status) ∨
    ∃ impl impl', ops.init limits = .ok impl ∧ ops'.init limits = .ok impl' ∧ related impl impl'
  clone : ∀ impl impl', related impl impl' →
    ∃ copy copy', ops.clone impl = .ok copy ∧ ops'.clone impl' = .ok copy' ∧ related copy copy'
  set : ∀ impl impl', related impl impl' → ∀ key value,
    Agree related (ops.set impl key value) (ops'.set impl' key value)
  setMany : ∀ impl impl', related impl impl' → ∀ writes,
    Agree related (ops.setMany impl writes) (ops'.setMany impl' writes)
  get : ∀ impl impl', related impl impl' → ops.get impl = ops'.get impl'
  contains : ∀ impl impl', related impl impl' → ops.contains impl = ops'.contains impl'
  erase : ∀ impl impl', related impl impl' → ∀ key,
    Agree related (ops.erase impl key) (ops'.erase impl' key)
  size : ∀ impl impl', related impl impl' → ops.size impl = ops'.size impl'

/-- Behind every handle the implementations are related. -/
def Alike (related : σ → τ → Prop) (handles : Handles σ) (handles' : Handles τ) : Prop :=
  ∀ handle, Option.Rel related (handles handle) (handles' handle)

/-- Two replies that agree, with handles that stay alike. -/
def SameStep (related : σ → τ → Prop) (first : Handles σ × StoreReply)
    (second : Handles τ × StoreReply) : Prop :=
  Alike related first.1 second.1 ∧ first.2 = second.2

section Simulation

variable {ops} {ops' : StoreOps τ} {related : σ → τ → Prop} {handles} {handles' : Handles τ}

theorem Alike.update (halike : Alike related handles handles') (handle : Nat) {impl : Option σ}
    {impl' : Option τ} (hrelated : Option.Rel related impl impl') :
    Alike related (Function.update handles handle impl) (Function.update handles' handle impl') := by
  intro other
  by_cases hother : other = handle
  · subst hother
    simpa using hrelated
  · simpa [hother] using halike other

/-- Behind a handle there is an implementation on both sides or on none. -/
theorem Alike.cases (halike : Alike related handles handles') (handle : Nat) :
    (handles handle = none ∧ handles' handle = none) ∨
      ∃ impl impl', handles handle = some impl ∧ handles' handle = some impl' ∧
        related impl impl' := by
  have hrel := halike handle
  generalize handles handle = impl at hrel
  generalize handles' handle = impl' at hrel
  cases hrel with
  | some hrelated => exact .inr ⟨_, _, rfl, rfl, hrelated⟩
  | none => exact .inl ⟨rfl, rfl⟩

theorem Alike.isSome_eq (halike : Alike related handles handles') (handle : Nat) :
    (handles handle).isSome = (handles' handle).isSome := by
  rcases halike.cases handle with ⟨hnone, hnone'⟩ | ⟨impl, impl', hsome, hsome', _⟩
  · simp [hnone, hnone']
  · simp [hsome, hsome']

/-- A pointer leads to an implementation on both sides or on none. -/
theorem Alike.storeImpl_cases (halike : Alike related handles handles') (store : Option Nat) :
    (storeImpl handles store = none ∧ storeImpl handles' store = none) ∨
      ∃ handle impl impl', storeImpl handles store = some (handle, impl) ∧
        storeImpl handles' store = some (handle, impl') ∧ related impl impl' := by
  cases store with
  | none => exact .inl ⟨rfl, rfl⟩
  | some handle =>
      rcases halike.cases handle with ⟨hnone, hnone'⟩ | ⟨impl, impl', hsome, hsome', hrelated⟩
      · exact .inl ⟨by simp [storeImpl, hnone], by simp [storeImpl, hnone']⟩
      · exact .inr ⟨handle, impl, impl', by simp [storeImpl, hsome], by simp [storeImpl, hsome'],
          hrelated⟩

theorem Alike.change (halike : Alike related handles handles') (store : Option Nat)
    {operation : σ → σ × ValueStatus} {operation' : τ → τ × ValueStatus}
    (hagree : ∀ impl impl', related impl impl' → Agree related (operation impl) (operation' impl')) :
    SameStep related (StoreOps.change handles store operation)
      (StoreOps.change handles' store operation') := by
  rcases halike.storeImpl_cases store with ⟨hnone, hnone'⟩ | ⟨handle, impl, impl', hsome, hsome', hrel⟩
  · simp only [StoreOps.change, hnone, hnone']
    exact ⟨halike, rfl⟩
  · obtain ⟨hnext, hstatus⟩ := hagree impl impl' hrel
    simp only [StoreOps.change, hsome, hsome', hstatus]
    exact ⟨halike.update handle (.some hnext), rfl⟩

theorem Alike.consult (halike : Alike related handles handles') (store : Option Nat)
    (missing : StoreReply) {answer : σ → StoreReply} {answer' : τ → StoreReply}
    (hanswer : ∀ impl impl', related impl impl' → answer impl = answer' impl') :
    SameStep related (StoreOps.consult handles store missing answer)
      (StoreOps.consult handles' store missing answer') := by
  rcases halike.storeImpl_cases store with ⟨hnone, hnone'⟩ | ⟨handle, impl, impl', hsome, hsome', hrel⟩
  · simp only [StoreOps.consult, hnone, hnone']
    exact ⟨halike, rfl⟩
  · simp only [StoreOps.consult, hsome, hsome']
    exact ⟨halike, hanswer impl impl' hrel⟩

/-- A clone is installed on both sides. -/
theorem Simulates.install_clone (hsim : Simulates ops ops' related)
    (halike : Alike related handles handles') (handle : Nat) {impl : σ} {impl' : τ}
    (hrel : related impl impl') :
    SameStep related (install handles handle (ops.clone impl))
      (install handles' handle (ops'.clone impl')) := by
  obtain ⟨copy, copy', hcopy, hcopy', hrelated⟩ := hsim.clone impl impl' hrel
  rw [hcopy, hcopy']
  exact ⟨halike.update handle (.some hrelated), rfl⟩

/-- One call keeps the handles alike and gets one reply. -/
theorem Simulates.step (hsim : Simulates ops ops' related)
    (halike : Alike related handles handles') (call : StoreCall) :
    SameStep related (ops.step handles call) (ops'.step handles' call) := by
  cases call with
  | init store limits =>
      cases store with
      | none => exact ⟨halike, rfl⟩
      | some handle =>
          simp only [StoreOps.step, halike.isSome_eq handle]
          split
          · exact ⟨halike, rfl⟩
          · rcases hsim.init limits with ⟨status, hfail, hfail'⟩ | ⟨impl, impl', hok, hok', hrel⟩
            · rw [hfail, hfail']
              exact ⟨halike, rfl⟩
            · rw [hok, hok']
              exact ⟨halike.update handle (.some hrel), rfl⟩
  | clone destination source =>
      cases destination with
      | none => exact ⟨halike, rfl⟩
      | some destination =>
          rcases halike.storeImpl_cases source with ⟨hnone, hnone'⟩ | ⟨_, impl, impl', hsome, hsome', hrel⟩
          · simp only [StoreOps.step, hnone, hnone']
            exact ⟨halike, rfl⟩
          · simp only [StoreOps.step, hsome, hsome', halike.isSome_eq destination]
            split
            · exact ⟨halike, rfl⟩
            · exact hsim.install_clone halike destination hrel
  | replaceClone destination source =>
      rcases halike.storeImpl_cases destination with ⟨hnone, hnone'⟩ | ⟨target, old, old', hold, hold', hrelOld⟩
      · simp only [StoreOps.step, hnone, hnone']
        exact ⟨halike, rfl⟩
      rcases halike.storeImpl_cases source with ⟨hnone, hnone'⟩ | ⟨_, impl, impl', hsome, hsome', hrel⟩
      · simp only [StoreOps.step, hold, hold', hnone, hnone']
        exact ⟨halike, rfl⟩
      · simp only [StoreOps.step, hold, hold', hsome, hsome', hsim.limits _ _ hrelOld,
          hsim.limits _ _ hrel]
        split
        · exact ⟨halike, rfl⟩
        · exact hsim.install_clone halike target hrel
  | destroy store =>
      cases store with
      | none => exact ⟨halike, rfl⟩
      | some handle => exact ⟨halike.update handle .none, rfl⟩
  | set store key value =>
      exact halike.change store fun impl impl' hrel => hsim.set impl impl' hrel key value
  | setMany store writes =>
      cases writes with
      | none => exact ⟨halike, rfl⟩
      | some writes =>
          exact halike.change store fun impl impl' hrel => hsim.setMany impl impl' hrel writes
  | get store key capacity hasSize =>
      cases hasSize with
      | false => exact ⟨halike, rfl⟩
      | true =>
          apply halike.consult store
          intro impl impl' hrel
          rw [hsim.get impl impl' hrel]
  | contains store key hasResult =>
      cases hasResult with
      | false => exact ⟨halike, rfl⟩
      | true =>
          apply halike.consult store
          intro impl impl' hrel
          rw [hsim.contains impl impl' hrel]
  | erase store key =>
      exact halike.change store fun impl impl' hrel => hsim.erase impl impl' hrel key
  | size store =>
      apply halike.consult store
      intro impl impl' hrel
      rw [hsim.size impl impl' hrel]

/-- Every list of calls gets the same replies, and the handles end alike. -/
theorem Simulates.run (hsim : Simulates ops ops' related) (calls : List StoreCall) :
    answers ops.step (fun _ => none) calls = answers ops'.step (fun _ => none) calls ∧
      Alike related (ops.after calls) (ops'.after calls) := by
  have hrelated := answers_eq_of_related (Alike related) id
    (fun handles handles' call halike => hsim.step halike call) calls (fun _ => none)
    (fun _ => none) fun _ => .none
  simpa [after] using hrelated

end Simulation

/-! ## Frames -/

/-- A mutation that fails leaves its store as it was. -/
structure Atomic (ops : StoreOps σ) : Prop where
  set : ∀ impl key value, (ops.set impl key value).2 ≠ .ok → (ops.set impl key value).1 = impl
  setMany : ∀ impl writes, (ops.setMany impl writes).2 ≠ .ok → (ops.setMany impl writes).1 = impl
  erase : ∀ impl key, (ops.erase impl key).2 ≠ .ok → (ops.erase impl key).1 = impl

section Frames

variable {ops handles}

theorem storeImpl_eq_some {store : Option Nat} {handle : Nat} {impl : σ}
    (hsome : storeImpl handles store = some (handle, impl)) :
    store = some handle ∧ handles handle = some impl := by
  obtain ⟨target, rfl, hmap⟩ := Option.bind_eq_some_iff.mp hsome
  obtain ⟨found, hfound, hpair⟩ := Option.map_eq_some_iff.mp hmap
  obtain ⟨rfl, rfl⟩ := Prod.mk.inj hpair
  exact ⟨rfl, hfound⟩

theorem install_error {handle : Nat} {result : Except ValueStatus σ}
    (herror : (install handles handle result).2.status ≠ .ok) :
    (install handles handle result).1 = handles := by
  cases result with
  | error status => rfl
  | ok impl => exact absurd rfl herror

theorem change_error {store : Option Nat} {operation : σ → σ × ValueStatus}
    (hatomic : ∀ impl, (operation impl).2 ≠ .ok → (operation impl).1 = impl)
    (herror : (change handles store operation).2.status ≠ .ok) :
    (change handles store operation).1 = handles := by
  rw [change] at herror ⊢
  split
  · rfl
  · rename_i handle impl hsome
    simp only [hsome] at herror
    rw [hatomic impl herror, ← (storeImpl_eq_some hsome).2, Function.update_eq_self]

theorem consult_handles (store : Option Nat) (missing : StoreReply) (answer : σ → StoreReply) :
    (consult handles store missing answer).1 = handles := by
  rw [consult]
  split <;> rfl

/-- A call that fails changes nothing. -/
theorem Atomic.step (hatomic : Atomic ops) {call : StoreCall}
    (herror : (ops.step handles call).2.status ≠ .ok) : (ops.step handles call).1 = handles := by
  cases call with
  | init store limits =>
      cases store with
      | none => rfl
      | some handle =>
          simp only [StoreOps.step] at herror ⊢
          split at herror
          · rename_i hpresent
            rw [if_pos hpresent]
          · rename_i habsent
            rw [if_neg habsent]
            exact install_error herror
  | clone destination source =>
      simp only [StoreOps.step] at herror ⊢
      split
      · rename_i hsource
        simp only [hsource] at herror
        split at herror
        · rename_i hrefused
          rw [if_pos hrefused]
        · rename_i hallowed
          rw [if_neg hallowed]
          exact install_error herror
      · rfl
  | replaceClone destination source =>
      simp only [StoreOps.step] at herror ⊢
      split
      · rename_i hdestination hsource
        simp only [hdestination, hsource] at herror
        split at herror
        · rename_i hrefused
          rw [if_pos hrefused]
        · rename_i hallowed
          rw [if_neg hallowed]
          exact install_error herror
      · rfl
  | destroy store =>
      cases store with
      | none => rfl
      | some handle => exact absurd rfl herror
  | set store key value => exact change_error (fun impl => hatomic.set impl key value) herror
  | setMany store writes =>
      cases writes with
      | none => rfl
      | some writes => exact change_error (fun impl => hatomic.setMany impl writes) herror
  | get store key capacity hasSize =>
      cases hasSize with
      | false => rfl
      | true => exact consult_handles _ _ _
  | contains store key hasResult =>
      cases hasResult with
      | false => rfl
      | true => exact consult_handles _ _ _
  | erase store key => exact change_error (fun impl => hatomic.erase impl key) herror
  | size store => exact consult_handles _ _ _

theorem install_other {handle other : Nat} (hne : other ≠ handle) (result : Except ValueStatus σ) :
    (install handles handle result).1 other = handles other := by
  cases result with
  | error status => rfl
  | ok impl => exact Function.update_of_ne hne _ _

theorem change_other {store : Option Nat} {other : Nat} (hne : store ≠ some other)
    (operation : σ → σ × ValueStatus) : (change handles store operation).1 other = handles other := by
  rw [change]
  split
  · rfl
  · rename_i handle impl hsome
    obtain ⟨rfl, _⟩ := storeImpl_eq_some hsome
    exact Function.update_of_ne (fun hequal => hne (congrArg some hequal.symm)) _ _

/-- A call leaves every handle but its target alone. -/
theorem step_other {call : StoreCall} {other : Nat} (hne : call.target ≠ some other) :
    (ops.step handles call).1 other = handles other := by
  have hapart {handle : Nat} (htarget : some handle ≠ some other) : other ≠ handle :=
    fun hequal => htarget (congrArg some hequal.symm)
  cases call with
  | init store limits =>
      cases store with
      | none => rfl
      | some handle =>
          simp only [StoreOps.step]
          split
          · rfl
          · exact install_other (hapart hne) _
  | clone destination source =>
      simp only [StoreOps.step]
      split
      · split
        · rfl
        · exact install_other (hapart hne) _
      · rfl
  | replaceClone destination source =>
      simp only [StoreOps.step]
      split
      · rename_i hdestination _
        split
        · rfl
        · obtain ⟨rfl, _⟩ := storeImpl_eq_some hdestination
          exact install_other (hapart hne) _
      · rfl
  | destroy store =>
      cases store with
      | none => rfl
      | some handle => exact Function.update_of_ne (hapart hne) _ _
  | set store key value => exact change_other hne _
  | setMany store writes =>
      cases writes with
      | none => rfl
      | some writes => exact change_other hne _
  | get store key capacity hasSize =>
      cases hasSize with
      | false => rfl
      | true => exact congrFun (consult_handles _ _ _) other
  | contains store key hasResult =>
      cases hasResult with
      | false => rfl
      | true => exact congrFun (consult_handles _ _ _) other
  | erase store key => exact change_other hne _
  | size store => exact congrFun (consult_handles _ _ _) other

/-- Calls to other handles leave a handle alone. -/
theorem drive_other (calls : List StoreCall) {other : Nat}
    (hne : ∀ call ∈ calls, call.target ≠ some other) :
    drive ops.step handles calls other = handles other := by
  induction calls generalizing handles with
  | nil => rfl
  | cons call rest ih =>
      have hfirst := @step_other _ ops handles call other (hne call List.mem_cons_self)
      exact (ih fun call hmem => hne call (List.mem_cons_of_mem _ hmem)).trans hfirst

end Frames

end StoreOps

/-! ## Memory and maps -/

/-- The store in memory. -/
def memoryOps : StoreOps ValueStoreImpl where
  limits := ValueStoreImpl.limits
  init := ValueStoreImpl.init
  clone := ValueStoreImpl.clone
  set := ValueStoreImpl.set
  setMany := ValueStoreImpl.setMany
  get := ValueStoreImpl.get
  contains := ValueStoreImpl.contains
  erase := ValueStoreImpl.erase
  size := ValueStoreImpl.size

/-- The finite map; a clone of a map is the map. -/
noncomputable def mapOps : StoreOps MapStore where
  limits := MapStore.limits
  init := MapStore.init
  clone := .ok
  set := MapStore.set
  setMany := MapStore.setMany
  get := MapStore.get
  contains := MapStore.contains
  erase := MapStore.erase
  size := MapStore.size

/-- A memory holds a map: it realizes a table with that map. -/
def ValueStoreImpl.HoldsMap (impl : ValueStoreImpl) (store : MapStore) : Prop :=
  ∃ table : ValueStore, ValueStoreImpl.Realizes impl table ∧ store = table.toMap

/-- The operations on memory do what the operations on maps do. -/
theorem memory_simulates_map :
    StoreOps.Simulates memoryOps mapOps ValueStoreImpl.HoldsMap where
  limits := by
    rintro impl _ ⟨table, hrealizes, rfl⟩
    exact hrealizes.limits_eq
  init := by
    intro limits
    simp only [memoryOps, mapOps, ValueStoreImpl.init, MapStore.init]
    by_cases hadmitted : limits.admitted = true
    · refine .inr ⟨_, _, if_pos hadmitted, if_pos hadmitted, .blank limits hadmitted,
        ValueStoreImpl.realizes_blank limits hadmitted, ?_⟩
      simp only [ValueStore.toMap, ValueStore.blank, MapStore.mk.injEq, true_and]
      funext key
      exact (SlotTable.lookup_blank _ key).symm
    · exact .inl ⟨_, if_neg hadmitted, if_neg hadmitted⟩
  clone := by
    rintro impl _ ⟨table, hrealizes, rfl⟩
    obtain ⟨copy, hcopy, hcopied⟩ := hrealizes.clone
    exact ⟨copy, table.toMap, hcopy, rfl, table, hcopied, rfl⟩
  set := by
    rintro impl _ ⟨table, hrealizes, rfl⟩ key value
    obtain ⟨hnext, hstatus⟩ := hrealizes.set key value
    have hmap := table.set_toMap key value
    exact ⟨⟨_, hnext, congrArg Prod.fst hmap⟩, hstatus.trans (congrArg Prod.snd hmap).symm⟩
  setMany := by
    rintro impl _ ⟨table, hrealizes, rfl⟩ writes
    obtain ⟨hnext, hstatus⟩ := hrealizes.setMany writes
    have hmap := table.setMany_toMap writes
    exact ⟨⟨_, hnext, congrArg Prod.fst hmap⟩, hstatus.trans (congrArg Prod.snd hmap).symm⟩
  get := by
    rintro impl _ ⟨table, hrealizes, rfl⟩
    funext key capacity
    exact (hrealizes.get key capacity).trans (table.get_toMap key capacity).symm
  contains := by
    rintro impl _ ⟨table, hrealizes, rfl⟩
    funext key
    exact (hrealizes.contains key).trans (table.contains_toMap key).symm
  erase := by
    rintro impl _ ⟨table, hrealizes, rfl⟩ key
    obtain ⟨hnext, hstatus⟩ := hrealizes.erase key
    have hmap := table.erase_toMap key
    exact ⟨⟨_, hnext, congrArg Prod.fst hmap⟩, hstatus.trans (congrArg Prod.snd hmap).symm⟩
  size := by
    rintro impl _ ⟨table, hrealizes, rfl⟩
    exact hrealizes.size_eq.trans table.toMap_size.symm

/-- On maps a mutation that fails changes nothing. -/
theorem mapOps_atomic : StoreOps.Atomic mapOps where
  set := by
    intro store key value herror
    simp only [mapOps, MapStore.set] at herror ⊢
    repeat' split
    all_goals first | rfl | simp_all
  setMany := by
    intro store writes herror
    simp only [mapOps, MapStore.setMany] at herror ⊢
    repeat' split
    all_goals first | rfl | simp_all
  erase := by
    intro store key herror
    simp only [mapOps, MapStore.erase] at herror ⊢
    repeat' split
    all_goals first | rfl | simp_all

/-! ## What a memory denotes -/

namespace ValueStoreImpl

/-- The occupied entries, each with the two texts its pointers lead to and the recorded
length of the value. -/
def contents (impl : ValueStoreImpl) : List (Bytes × Bytes × Nat) :=
  impl.entries.filterMap fun entry =>
    if entry.occupied then
      some (Arena.text 0 impl.keyStorage entry.key, Arena.text 0 impl.valueStorage entry.value,
        entry.valueSize)
    else none

/-- A memory denotes a bounded map. -/
structure Denotes (impl : ValueStoreImpl) (store : MapStore) : Prop where
  limits_eq : impl.limits = store.limits
  size_eq : impl.size = impl.entries.countP fun entry => entry.occupied
  size_le : impl.size ≤ impl.capacity
  nodup : (impl.contents.map Prod.fst).Nodup
  keys_fit : ∀ entry ∈ impl.contents, 0 < entry.1.length ∧ entry.1.length ≤ impl.maxKeyBytes
  values_fit : ∀ entry ∈ impl.contents,
    entry.2.1.length = entry.2.2 ∧ entry.2.2 ≤ impl.maxValueBytes
  map_iff : ∀ key value, store.map key = some value ↔
    (key.bytes, value.bytes, value.length) ∈ impl.contents
  finite : (SlotTable.domain store.map).Finite
  card_eq : (SlotTable.domain store.map).ncard = impl.size

/-- Two lists that agree place by place have the same selection. -/
theorem filterMap_congr_places {α β γ : Type} {first : List α} {second : List β}
    {f : α → Option γ} {g : β → Option γ} (hlength : first.length = second.length)
    (hagree : ∀ (index : Nat) x y, first[index]? = some x → second[index]? = some y → f x = g y) :
    first.filterMap f = second.filterMap g := by
  induction first generalizing second with
  | nil =>
      obtain rfl : second = [] := List.length_eq_zero_iff.mp hlength.symm
      rfl
  | cons x rest ih =>
      cases second with
      | nil => simp at hlength
      | cons y rest' =>
          have hhead := hagree 0 x y rfl rfl
          have htail := @ih rest' (by simpa using hlength) fun index x y hx hy =>
            hagree (index + 1) x y (by simpa using hx) (by simpa using hy)
          rw [List.filterMap_cons, List.filterMap_cons, hhead, htail]

/-- The contents of a memory are the slots of the table it lays out. -/
theorem Lays.contents_eq {impl : ValueStoreImpl} {slots : List (Option (CString × CString))}
    (hlays : Lays impl slots) :
    impl.contents = slots.filterMap
      (Option.map fun pair => (pair.1.bytes, pair.2.bytes, pair.2.length)) := by
  apply filterMap_congr_places (hlays.entries_length.trans hlays.slots_length.symm)
  intro index entry slot hentry hslot
  have hheld := hlays.held index entry slot hentry hslot
  cases slot with
  | none =>
      rw [show entry.occupied = false from hheld]
      rfl
  | some pair =>
      obtain ⟨key, value⟩ := pair
      obtain ⟨hoccupied, _, _, hkey, hvalue, hsize⟩ := hheld
      rw [hoccupied, hkey.text_eq, hvalue.text_eq, hsize]
      rfl

theorem contents_keys {slots : List (Option (CString × CString))} :
    (slots.filterMap
      (Option.map fun pair => (pair.1.bytes, pair.2.bytes, pair.2.length))).map Prod.fst =
      (SlotTable.keysOf slots).map CString.bytes := by
  rw [SlotTable.keysOf, List.map_filterMap, List.map_filterMap]
  simp only [Option.map_map]
  rfl

theorem mem_contents_iff {slots : List (Option (CString × CString))} {entry : Bytes × Bytes × Nat} :
    entry ∈ slots.filterMap
        (Option.map fun pair => (pair.1.bytes, pair.2.bytes, pair.2.length)) ↔
      ∃ key value, some (key, value) ∈ slots ∧ entry = (key.bytes, value.bytes, value.length) := by
  rw [List.mem_filterMap]
  constructor
  · rintro ⟨slot, hslot, hentry⟩
    obtain ⟨⟨key, value⟩, rfl, rfl⟩ := Option.map_eq_some_iff.mp hentry
    exact ⟨key, value, hslot, rfl⟩
  · rintro ⟨key, value, hslot, rfl⟩
    exact ⟨some (key, value), hslot, rfl⟩

/-- A memory that holds a map denotes it. -/
theorem HoldsMap.denotes {impl : ValueStoreImpl} {store : MapStore}
    (hholds : impl.HoldsMap store) : impl.Denotes store := by
  obtain ⟨table, hrealizes, rfl⟩ := hholds
  have hcontents := hrealizes.lays.contents_eq
  have hfound {entry : Bytes × Bytes × Nat} (hmem : entry ∈ impl.contents) :
      ∃ key value, table.findEntry key = some value ∧
        entry = (key.bytes, value.bytes, value.length) := by
    rw [hcontents, mem_contents_iff] at hmem
    obtain ⟨key, value, hslot, rfl⟩ := hmem
    exact ⟨key, value, SlotTable.lookup_eq_some_iff.mpr hslot, rfl⟩
  have hlength : impl.contents.length = table.size := by
    have hkeys := congrArg List.length (@contents_keys table.entries.slots)
    rw [← hcontents, List.length_map, List.length_map] at hkeys
    rw [hkeys, table.size_eq]
    rfl
  refine ⟨hrealizes.limits_eq, ?_, ?_, ?_, ?_, ?_, ?_, ?_, ?_⟩
  · rw [hrealizes.size_eq, ← hlength, contents, List.length_filterMap_eq_countP]
    apply List.countP_congr
    intro entry _
    by_cases hoccupied : entry.occupied = true <;> simp [hoccupied]
  · rw [hrealizes.size_eq, hrealizes.capacity_eq]
    exact table.size_le
  · rw [hcontents, contents_keys]
    exact table.entries.nodup_keys.map fun first second => CString.ext
  · intro entry hmem
    obtain ⟨key, value, hentry, rfl⟩ := hfound hmem
    rw [hrealizes.maxKeyBytes_eq]
    exact (table.fits key value hentry).1
  · intro entry hmem
    obtain ⟨key, value, hentry, rfl⟩ := hfound hmem
    rw [hrealizes.maxValueBytes_eq]
    exact ⟨rfl, (table.fits key value hentry).2⟩
  · intro key value
    rw [hcontents, mem_contents_iff, ValueStore.toMap_map, ValueStore.findEntry,
      SlotTable.lookup_eq_some_iff]
    constructor
    · exact fun hslot => ⟨key, value, hslot, rfl⟩
    · rintro ⟨other, stored, hslot, hequal⟩
      have hkey : key = other := CString.ext (congrArg Prod.fst hequal)
      have hvalue : value = stored := CString.ext (congrArg (fun entry => entry.2.1) hequal)
      rw [hkey, hvalue]
      exact hslot
  · exact SlotTable.finite_domain_lookup table.entries
  · rw [hrealizes.size_eq, ← table.toMap_size]
    rfl

end ValueStoreImpl

/-! ## Every sequence of calls -/

/-- On memory a mutation that fails changes nothing. -/
theorem memoryOps_atomic : StoreOps.Atomic memoryOps where
  set := by
    intro impl key value herror
    simp only [memoryOps, ValueStoreImpl.set] at herror ⊢
    repeat' split
    all_goals first | rfl | simp_all
  setMany := by
    intro impl writes herror
    simp only [memoryOps, ValueStoreImpl.setMany] at herror ⊢
    repeat' split
    all_goals first | rfl | simp_all
  erase := by
    intro impl key herror
    simp only [memoryOps, ValueStoreImpl.erase] at herror ⊢
    repeat' split
    all_goals first | rfl | simp_all

/-- What holds between the memories and the maps a program has reached. -/
structure RefinesMap (calls : List StoreCall) : Prop where
  replies : answers memoryOps.step (fun _ => none) calls = answers mapOps.step (fun _ => none) calls
  denotes : StoreOps.Alike ValueStoreImpl.Denotes (memoryOps.after calls) (mapOps.after calls)
  get_found : ∀ handle store key value capacity, mapOps.after calls handle = some store →
    store.map key = some value →
    ∃ reply, (memoryOps.step (memoryOps.after calls)
        (.get (some handle) (some key) capacity true)).2 = reply ∧
      reply.size = some value.length ∧
      (reply.status = .ok ↔ ∃ room, capacity = some room ∧ value.length < room) ∧
      (reply.status = .ok ∧ reply.bytes = some (value.bytes ++ [0]) ∨
        reply.status = .enobufs ∧ reply.bytes = none)
  get_missing : ∀ handle store key capacity, mapOps.after calls handle = some store →
    store.limits.fitsKey key → store.map key = none →
    (memoryOps.step (memoryOps.after calls) (.get (some handle) (some key) capacity true)).2 =
      { status := .enotfound }
  contains_eq : ∀ handle store key, mapOps.after calls handle = some store →
    store.limits.fitsKey key →
    (memoryOps.step (memoryOps.after calls) (.contains (some handle) (some key) true)).2 =
      { status := .ok, found := some (store.map key).isSome }
  set_full : ∀ handle store key value, mapOps.after calls handle = some store →
    store.limits.fitsKey key → store.limits.fitsValue value → store.map key = none →
    ((memoryOps.step (memoryOps.after calls)
      (.set (some handle) (some key) (some value))).2.status = .enospc ↔
      (SlotTable.domain store.map).ncard = store.limits.capacity)
  set_binds : ∀ handle store key value, mapOps.after calls handle = some store →
    (memoryOps.step (memoryOps.after calls)
      (.set (some handle) (some key) (some value))).2.status = .ok →
    mapOps.after (calls ++ [.set (some handle) (some key) (some value)]) handle =
      some { store with map := Function.update store.map key (some value) }
  clone_eq : ∀ destination source,
    (memoryOps.step (memoryOps.after calls) (.clone (some destination) (some source))).2.status =
      .ok →
    mapOps.after (calls ++ [.clone (some destination) (some source)]) destination =
      mapOps.after calls source
  alone : ∀ later handle, (∀ call ∈ later, call.target ≠ some handle) →
    memoryOps.after (calls ++ later) handle = memoryOps.after calls handle ∧
      mapOps.after (calls ++ later) handle = mapOps.after calls handle
  failed : ∀ call, (memoryOps.step (memoryOps.after calls) call).2.status ≠ .ok →
    memoryOps.after (calls ++ [call]) = memoryOps.after calls ∧
      mapOps.after (calls ++ [call]) = mapOps.after calls

namespace StoreOps

variable {σ : Type} {ops : StoreOps σ}

theorem after_append (calls later : List StoreCall) :
    ops.after (calls ++ later) = drive ops.step (ops.after calls) later :=
  drive_append _ _ _ _

theorem after_snoc (calls : List StoreCall) (call : StoreCall) :
    ops.after (calls ++ [call]) = (ops.step (ops.after calls) call).1 :=
  after_append calls [call]

theorem storeImpl_some {handles : Handles σ} {handle : Nat} {impl : σ}
    (himpl : handles handle = some impl) :
    storeImpl handles (some handle) = some (handle, impl) := by
  simp [storeImpl, himpl]

end StoreOps

namespace MapStore

variable {store : MapStore} {key value : CString}

/-- Reading a key that is bound. -/
theorem get_of_found (hkey : store.limits.fitsKey key) (hfound : store.map key = some value)
    (capacity : Option Nat) :
    (store.get (some key) capacity).2.1 = some value.length ∧
      ((store.get (some key) capacity).1 = .ok ↔
        ∃ room, capacity = some room ∧ value.length < room) ∧
      ((store.get (some key) capacity).1 = .ok ∧
          (store.get (some key) capacity).2.2 = some (value.bytes ++ [0]) ∨
        (store.get (some key) capacity).1 = .enobufs ∧
          (store.get (some key) capacity).2.2 = none) := by
  simp only [get, hkey, if_true, hfound]
  cases capacity with
  | none => simp
  | some room =>
      by_cases hshort : value.length < room
      · simp [hshort]
      · simp [hshort]

/-- A new key finds no room exactly in a full map. -/
theorem set_eq_enospc_iff (hmax : store.limits.maxKeyBytes < sizeMax)
    (hkey : store.limits.fitsKey key) (hvalue : store.limits.fitsValue value)
    (hmissing : store.map key = none) :
    (store.set (some key) (some value)).2 = .enospc ↔
      (SlotTable.domain store.map).ncard = store.limits.capacity := by
  obtain ⟨hpos, hle⟩ := hkey
  have hshort : value.length ≤ store.limits.maxValueBytes := hvalue
  have hnone : ¬ (key.length = 0 ∨
      boundedLength key store.limits.maxKeyBytes = sizeMax) := by
    rw [boundedLength]
    omega
  have hlong : ¬ (key.length > store.limits.maxKeyBytes ∨
      value.length > store.limits.maxValueBytes) := by omega
  change _ ↔ store.size = store.limits.capacity
  simp only [set, if_neg hnone, if_neg hlong, hmissing, true_and]
  by_cases hfull : store.size = store.limits.capacity
  · simp [hfull]
  · simp [hfull]

/-- A write that succeeds binds its key. -/
theorem set_of_ok (hok : (store.set (some key) (some value)).2 = .ok) :
    (store.set (some key) (some value)).1 =
      { store with map := Function.update store.map key (some value) } := by
  simp only [set] at hok ⊢
  split at hok
  · cases hok
  split at hok
  · cases hok
  split at hok
  · cases hok
  · rename_i hnone hlong hroom
    rw [if_neg hnone, if_neg hlong, if_neg hroom]

end MapStore

/-- Every sequence of calls on bounded stores behaves as on bounded finite maps. -/
theorem run_refinesMap (calls : List StoreCall) : RefinesMap calls := by
  obtain ⟨hreplies, halike⟩ := memory_simulates_map.run calls
  have hreply (call : StoreCall) := (memory_simulates_map.step halike call).2
  have htable (handle : Nat) (store : MapStore) (hstore : mapOps.after calls handle = some store) :
      ∃ table : ValueStore, store = table.toMap := by
    rcases halike.cases handle with ⟨_, hnone⟩ | ⟨impl, held, _, hheld, table, _, htable⟩
    · rw [hnone] at hstore
      cases hstore
    · rw [hheld] at hstore
      cases hstore
      exact ⟨table, htable⟩
  refine ⟨hreplies, ?_, ?_, ?_, ?_, ?_, ?_, ?_, ?_, ?_⟩
  · intro handle
    rcases halike.cases handle with ⟨hnone, hnone'⟩ | ⟨impl, store, hsome, hsome', hholds⟩
    · rw [hnone, hnone']
      exact .none
    · rw [hsome, hsome']
      exact .some hholds.denotes
  · intro handle store key value capacity hstore hfound
    obtain ⟨table, rfl⟩ := htable handle store hstore
    refine ⟨_, hreply _, ?_⟩
    simp only [StoreOps.step, StoreOps.consult, StoreOps.storeImpl_some hstore, if_true]
    exact MapStore.get_of_found (ValueStore.fitsKey_of_findEntry hfound) hfound capacity
  · intro handle store key capacity hstore hkey hmissing
    rw [hreply]
    simp only [StoreOps.step, StoreOps.consult, StoreOps.storeImpl_some hstore, if_true]
    simp [mapOps, MapStore.get, hkey, hmissing]
  · intro handle store key hstore hkey
    rw [hreply]
    simp only [StoreOps.step, StoreOps.consult, StoreOps.storeImpl_some hstore, if_true]
    simp [mapOps, MapStore.contains, hkey]
  · intro handle store key value hstore hkey hvalue hmissing
    obtain ⟨table, rfl⟩ := htable handle store hstore
    rw [hreply]
    simp only [StoreOps.step, StoreOps.change, StoreOps.storeImpl_some hstore]
    exact MapStore.set_eq_enospc_iff table.maxKeyBytes_lt hkey hvalue hmissing
  · intro handle store key value hstore hok
    rw [hreply] at hok
    rw [StoreOps.after_snoc]
    simp only [StoreOps.step, StoreOps.change, StoreOps.storeImpl_some hstore] at hok ⊢
    rw [Function.update_self]
    exact congrArg some (MapStore.set_of_ok hok)
  · intro destination source hok
    rw [hreply] at hok
    rw [StoreOps.after_snoc]
    cases hsource : StoreOps.storeImpl (mapOps.after calls) (some source) with
    | none => simp [StoreOps.step, hsource] at hok
    | some found =>
        obtain ⟨handle, store⟩ := found
        obtain ⟨hhandle, hstore⟩ := StoreOps.storeImpl_eq_some hsource
        obtain rfl : source = handle := Option.some.inj hhandle
        simp only [StoreOps.step, hsource] at hok ⊢
        split at hok
        · cases hok
        · rename_i hallowed
          rw [if_neg hallowed]
          exact (Function.update_self destination _ _).trans hstore.symm
  · intro later handle hother
    rw [StoreOps.after_append, StoreOps.after_append]
    exact ⟨StoreOps.drive_other later hother, StoreOps.drive_other later hother⟩
  · intro call herror
    rw [StoreOps.after_snoc, StoreOps.after_snoc]
    refine ⟨memoryOps_atomic.step herror, mapOps_atomic.step ?_⟩
    rw [← hreply call]
    exact herror

end Praktor.Values
