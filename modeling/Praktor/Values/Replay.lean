/-
# The commit loops as replays of a net effect

Both commit paths work on a staged clone through the public operations of the
store, and stop at the first status that is not `OK`.  On a clone with the limits
of the transaction no length check can fail, so the only way to stop is a full
table: the loops are replays of a net effect in the sense of `Math.Overlay`.  The
single commit replays in log order, the group with the removals first.
-/

import Praktor.Math.Optimistic
import Praktor.Values.Transaction

namespace Praktor.Values

open Praktor.Data Praktor.Math Praktor.Math.SlotTable

/-! ## One operation on a staged clone -/

/-- Setting admitted texts is a put. -/
theorem set_staged {staged : ValueStore} {key value : CString}
    (hkey : staged.limits.fitsKey key) (hvalue : staged.limits.fitsValue value) :
    (staged.entries.put key value = none ∧
        staged.set (some key) (some value) = (staged, .enospc)) ∨
      ∃ next, staged.entries.put key value = some next.entries ∧ next.limits = staged.limits ∧
        staged.set (some key) (some value) = (next, .ok) := by
  rw [ValueStore.set_eq_insert hkey hvalue]
  exact ValueStore.insert_cases hkey hvalue

/-- Removing a key that may be there always succeeds. -/
theorem removePresent_staged {staged : ValueStore} {key : CString}
    (hkey : staged.limits.fitsKey key) :
    ∃ next, next.entries = staged.entries.erase key ∧ next.limits = staged.limits ∧
      removePresent staged key = (next, .ok) := by
  have hadmits := ValueStore.admitsKey_iff.mpr hkey
  cases hfound : staged.findEntry key with
  | none =>
      refine ⟨staged, (erase_of_lookup_eq_none hfound).symm, rfl, ?_⟩
      simp [removePresent, ValueStore.contains, hadmits, hfound]
  | some value =>
      refine ⟨(staged.erase (some key)).1, ?_, (staged.erase_spec (some key)).limits_eq, ?_⟩
      · simp [ValueStore.erase, hadmits, hfound]
      · simp [removePresent, ValueStore.contains, ValueStore.erase, hadmits, hfound]

/-! ## The three loops -/

/-- A loop either found the table full or ended with the replayed slots. -/
def Replays (staged : ValueStore) (writes : List (CString × Option CString))
    (result : ValueStore × ValueStatus) : Prop :=
  (replay writes staged.entries = none ∧ result.2 = .enospc) ∨
    ∃ next, replay writes staged.entries = some next.entries ∧ next.limits = staged.limits ∧
      result = (next, .ok)

/-- What the log of a transaction with this working copy amounts to. -/
def logNet (working : ValueStore) (ops : List TxnOp) : List (CString × Option CString) :=
  ops.map fun op => (op.key, working.findEntry op.key)

/-- What the operations of a group amount to. -/
def opsNet (ops : List (ValueStore × TxnOp)) : List (CString × Option CString) :=
  ops.map fun entry => (entry.2.key, entry.1.findEntry entry.2.key)

theorem replayOps_replays (working : ValueStore) :
    ∀ (ops : List TxnOp) (staged : ValueStore), staged.limits = working.limits →
      (∀ op ∈ ops, working.limits.fitsKey op.key) →
      Replays staged (logNet working ops) (replayOps working ops staged) := by
  intro ops
  induction ops with
  | nil =>
      intro staged _ _
      exact .inr ⟨staged, rfl, rfl, rfl⟩
  | cons op rest ih =>
      intro staged hlimits hkeys
      have hkey : staged.limits.fitsKey op.key := hlimits ▸ hkeys op (by simp)
      have hrest : ∀ op ∈ rest, working.limits.fitsKey op.key := fun op hop =>
        hkeys op (by simp [hop])
      cases hfound : working.findEntry op.key with
      | none =>
          obtain ⟨next, hentries, hnext, hremoved⟩ := removePresent_staged hkey
          have heq : replayOps working (op :: rest) staged = replayOps working rest next := by
            simp [replayOps, hfound, hremoved]
          have hreplay : replay (logNet working (op :: rest)) staged.entries =
              replay (logNet working rest) next.entries := by
            simp [logNet, hfound, replay, hentries]
          have htail := ih next (hnext.trans hlimits) hrest
          rw [Replays, heq, hreplay, ← hnext]
          exact htail
      | some value =>
          have hvalue : staged.limits.fitsValue value := hlimits ▸ (working.fits _ _ hfound).2
          rcases set_staged hkey hvalue with ⟨hfull, hset⟩ | ⟨next, hput, hnext, hset⟩
          · refine .inl ⟨?_, ?_⟩
            · simp [logNet, hfound, replay, hfull]
            · simp [replayOps, hfound, hset]
          · have heq : replayOps working (op :: rest) staged = replayOps working rest next := by
              simp [replayOps, hfound, hset]
            have hreplay : replay (logNet working (op :: rest)) staged.entries =
                replay (logNet working rest) next.entries := by
              simp [logNet, hfound, replay, hput]
            have htail := ih next (hnext.trans hlimits) hrest
            rw [Replays, heq, hreplay, ← hnext]
            exact htail

/-- The operations of a group fit the staged clone. -/
def OpsFit (limits : StoreLimits) (ops : List (ValueStore × TxnOp)) : Prop :=
  ∀ entry ∈ ops, entry.1.limits = limits ∧ limits.fitsKey entry.2.key

theorem removalPass_replays :
    ∀ (ops : List (ValueStore × TxnOp)) (staged : ValueStore), OpsFit staged.limits ops →
      ∃ next, replay ((opsNet ops).filter (·.2.isNone)) staged.entries = some next.entries ∧
        next.limits = staged.limits ∧ removalPass ops staged = (next, .ok) := by
  intro ops
  induction ops with
  | nil =>
      intro staged _
      exact ⟨staged, rfl, rfl, rfl⟩
  | cons entry rest ih =>
      intro staged hfit
      obtain ⟨working, op⟩ := entry
      obtain ⟨_, hkey⟩ := hfit (working, op) (by simp)
      have hrest : OpsFit staged.limits rest := fun entry hentry => hfit entry (by simp [hentry])
      cases hfound : working.findEntry op.key with
      | none =>
          obtain ⟨middle, hentries, hmiddle, hremoved⟩ := removePresent_staged hkey
          obtain ⟨next, hreplay, hnext, hpass⟩ := ih middle (hmiddle ▸ hrest)
          refine ⟨next, ?_, hnext.trans hmiddle, ?_⟩
          · rw [hentries] at hreplay
            simpa [opsNet, hfound, replay] using hreplay
          · simp [removalPass, hfound, hremoved, hpass]
      | some value =>
          obtain ⟨next, hreplay, hnext, hpass⟩ := ih staged hrest
          refine ⟨next, ?_, hnext, ?_⟩
          · simpa [opsNet, hfound] using hreplay
          · simp [removalPass, hfound, hpass]

theorem writePass_replays :
    ∀ (ops : List (ValueStore × TxnOp)) (staged : ValueStore), OpsFit staged.limits ops →
      Replays staged ((opsNet ops).filter (·.2.isSome)) (writePass ops staged) := by
  intro ops
  induction ops with
  | nil =>
      intro staged _
      exact .inr ⟨staged, rfl, rfl, rfl⟩
  | cons entry rest ih =>
      intro staged hfit
      obtain ⟨working, op⟩ := entry
      obtain ⟨hlimits, hkey⟩ := hfit (working, op) (by simp)
      have hrest : OpsFit staged.limits rest := fun entry hentry => hfit entry (by simp [hentry])
      cases hfound : working.findEntry op.key with
      | none => simpa [Replays, opsNet, hfound, writePass] using ih staged hrest
      | some value =>
          have hvalue : staged.limits.fitsValue value := hlimits ▸ (working.fits _ _ hfound).2
          rcases set_staged hkey hvalue with ⟨hfull, hset⟩ | ⟨next, hput, hnext, hset⟩
          · refine .inl ⟨?_, ?_⟩
            · simp [opsNet, hfound, replay, hfull]
            · simp [writePass, hfound, hset]
          · have hpass : writePass ((working, op) :: rest) staged = writePass rest next := by
              simp [writePass, hfound, hset]
            have hreplay : replay ((opsNet ((working, op) :: rest)).filter (·.2.isSome))
                staged.entries = replay ((opsNet rest).filter (·.2.isSome)) next.entries := by
              simp [opsNet, hfound, replay, hput]
            have htail := ih next (hnext ▸ hrest)
            rw [Replays, hpass, hreplay, ← hnext]
            exact htail

/-- The two passes of a group commit, one after the other. -/
theorem passes_replay {ops : List (ValueStore × TxnOp)} {staged : ValueStore}
    (hfit : OpsFit staged.limits ops) :
    (removalPass ops staged).2 = .ok ∧
      Replays staged (removalsFirst (opsNet ops)) (writePass ops (removalPass ops staged).1) := by
  obtain ⟨middle, hremovals, hmiddle, hpass⟩ := removalPass_replays ops staged hfit
  refine ⟨by rw [hpass], ?_⟩
  rw [hpass, Replays, removalsFirst, replay_append, hremovals, Option.bind_some, ← hmiddle]
  exact writePass_replays ops middle (hmiddle ▸ hfit)

/-! ## What a replay leaves -/

/-- A finished replay leaves the overlay of the net effect, in log order exactly
when every map on the way fits. -/
theorem Replays.spec {staged : ValueStore} {writes : List (CString × Option CString)}
    {result : ValueStore × ValueStatus} (hreplays : Replays staged writes result)
    (hnodup : (touchedBy writes).Nodup) :
    (result.2 = .enospc ∧ ¬ (replay writes staged.entries).isSome = true) ∨
      ∃ next, result = (next, .ok) ∧ (replay writes staged.entries).isSome = true ∧
        next.limits = staged.limits ∧ next.findEntry = overlay staged.findEntry writes := by
  rcases hreplays with ⟨hnone, hstatus⟩ | ⟨next, hsome, hlimits, hresult⟩
  · exact .inl ⟨hstatus, by simp [hnone]⟩
  · refine .inr ⟨next, hresult, by simp [hsome], hlimits, ?_⟩
    exact (lookup_replay hnodup hsome).1

end Praktor.Values
