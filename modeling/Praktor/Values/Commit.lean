/-
# What a commit does, over every run

The ledger of a run relates each live transaction to the snapshot its calls have
built, so the statements here speak of target contents, values at the beginning
and touched keys only.  Between any two calls of a transaction the target may have
been written directly or replaced by other commits.
-/

import Praktor.Values.Ledger

namespace Praktor.Values

open Praktor.Data Praktor.Math Praktor.Math.SlotTable

namespace Ledger

variable {ledger : Ledger} {history : List (ValueRequest × ValueStatus)}

theorem content_eq {world : World} {id : Nat} {store : ValueStore}
    (hstore : world.stores id = some store) : world.content id = store.findEntry := by
  simp [World.content, hstore]

/-! ## The single commit -/

/-- The exact effect of a commit of `snapshot` into `target`. -/
structure CommitSpec (ledger : Ledger) (id target : Nat) (snapshot : TextSnapshot)
    (result : Ledger × ValueStatus) : Prop where
  conflict_iff : result.2 = .econflict ↔
    ∃ key ∈ snapshot.touched, ledger.world.content target key ≠ snapshot.begun key
  overlaid : result.2 = .ok → ∀ key, result.1.world.content target key =
    if key ∈ snapshot.touched then snapshot.working key else ledger.world.content target key
  framed : result.2 = .ok →
    (∀ other, other ≠ target → result.1.world.stores other = ledger.world.stores other) ∧
    ∀ other, result.1.world.txns other = if other = id then none else ledger.world.txns other
  refused : result.2 ≠ .ok → result.1 = ledger

theorem Sound.commitSpec (hsound : ledger.Sound) {id : Nat} {txn : ValueTxn}
    (htxn : ledger.world.txns id = some txn) :
    ∃ snapshot, ledger.snapshots id = some (txn.target, snapshot) ∧
      CommitSpec ledger id txn.target snapshot (ledger.step (.commit id)) := by
  obtain ⟨snapshot, store, hsnapshot, hrepresents, hstore, hlimits⟩ := hsound.live id txn htxn
  refine ⟨snapshot, hsnapshot, ?_⟩
  have hcontent := content_eq hstore
  rcases txnCommit_cases htxn hstore hlimits hrepresents with
    ⟨hconflict, hcommit⟩ | ⟨hquiet, _, hcommit⟩ | ⟨hquiet, _, next, _, hlookup, hcommit⟩
  · have hstep : ledger.step (.commit id) = (ledger, .econflict) := by
      simp [Ledger.step, World.step, hcommit]
    rw [hstep]
    exact ⟨by simpa [hcontent, Snapshot.Conflicts] using hconflict, by simp, by simp, fun _ => rfl⟩
  · have hstep : ledger.step (.commit id) = (ledger, .enospc) := by
      simp [Ledger.step, World.step, hcommit]
    rw [hstep]
    exact ⟨by simpa [hcontent, Snapshot.Conflicts] using hquiet, by simp, by simp, fun _ => rfl⟩
  · have hstep : ledger.step (.commit id) =
        (⟨(ledger.world.withStore txn.target next).txnAbort id,
          Function.update ledger.snapshots id none⟩, .ok) := by
      simp [Ledger.step, World.step, hcommit, observe]
    rw [hstep]
    refine ⟨by simpa [hcontent, Snapshot.Conflicts] using hquiet, fun _ key => ?_, fun _ => ⟨?_, ?_⟩,
      fun hne => absurd rfl hne⟩
    · rw [hcontent, ← snapshot.overlay_net, ← hlookup]
      simp [World.content, World.txnAbort, World.withTxn, World.withStore]
    · intro other hother
      simp [World.txnAbort, World.withTxn, World.withStore, hother]
    · intro other
      by_cases hother : other = id <;>
        simp [World.txnAbort, World.withTxn, World.withStore, hother]

/-- The commit of every live transaction, after any run: a conflict is reported
exactly when a touched key has moved since the beginning, success overlays the
net effect, and every other answer leaves everything as it was.  Of two
transactions begun from the same contents that both changed a key, the second to
commit right after the first is refused. -/
theorem commit_exact (hrun : Run Ledger.step empty history ledger) (id : Nat) (txn : ValueTxn)
    (htxn : ledger.world.txns id = some txn) :
    ∃ snapshot, ledger.snapshots id = some (txn.target, snapshot) ∧
      CommitSpec ledger id txn.target snapshot (ledger.step (.commit id)) ∧
      ∀ other rival, other ≠ id → ledger.snapshots other = some (txn.target, rival) →
        rival.begun = snapshot.begun →
        (∃ key, key ∈ snapshot.touched ∧ key ∈ rival.touched ∧
          snapshot.working key ≠ snapshot.begun key) →
        (ledger.step (.commit id)).2 = .ok →
        ((ledger.step (.commit id)).1.step (.commit other)).2 = .econflict := by
  have hsound := sound_of_run hrun
  obtain ⟨snapshot, hsnapshot, hspec⟩ := hsound.commitSpec htxn
  refine ⟨snapshot, hsnapshot, hspec, ?_⟩
  rintro other rival hother hrival hbegun ⟨key, htouched, hshared, hchanged⟩ hok
  have hnext := hsound.step (.commit id)
  have hkept : (ledger.step (.commit id)).1.snapshots other = some (txn.target, rival) := by
    have hstatus : (ledger.world.step (.commit id)).2 = .ok := hok
    simp [Ledger.step, hstatus, observe, hother, hrival]
  cases hlive : (ledger.step (.commit id)).1.world.txns other with
  | none =>
      rw [hnext.recorded other hlive] at hkept
      contradiction
  | some found =>
      obtain ⟨recorded, hrecorded, hsecond⟩ := hnext.commitSpec hlive
      rw [hkept, Option.some.injEq, Prod.mk.injEq] at hrecorded
      obtain ⟨htarget, rfl⟩ := hrecorded
      refine hsecond.conflict_iff.mpr ⟨key, hshared, ?_⟩
      rw [← htarget, hspec.overlaid hok key, if_pos htouched, hbegun]
      exact hchanged

/-- A store with two slots and the key `x`; a transaction that sets `a` and erases
`x`; and then a direct write of `z`. -/
def crowded : List ValueRequest :=
  [.init 0 ⟨2, 4, 4⟩, .set 0 (some (.literal "x")) (some (.literal "1")), .begin 0 0,
    .txnSet 0 (some (.literal "a")) (some (.literal "2")), .txnErase 0 (some (.literal "x")),
    .set 0 (some (.literal "z")) (some (.literal "3"))]

theorem exists_txn_crowded : ∃ txn, (drive step empty crowded).world.txns 0 = some txn :=
  Option.isSome_iff_exists.mp (by decide)

theorem commit_exact_crowded :
    ∃ txn snapshot, (drive step empty crowded).world.txns 0 = some txn ∧
      CommitSpec (drive step empty crowded) 0 txn.target snapshot
        ((drive step empty crowded).step (.commit 0)) := by
  have hrun := run_drive step empty crowded
  obtain ⟨txn, htxn⟩ := exists_txn_crowded
  obtain ⟨snapshot, _, hspec, _⟩ := commit_exact hrun 0 txn htxn
  exact ⟨txn, snapshot, htxn, hspec⟩

/-! ## Single and group commit -/

/-- The two ways to commit one transaction answer alike, and when they succeed
leave the target alike. -/
def CommitsAgree (world : World) (id target : Nat) : Prop :=
  (world.step (.commit id)).2 = (world.step (.commitGroup [id])).2 ∧
    ((world.step (.commit id)).2 = .ok → (world.step (.commit id)).1.content target =
      (world.step (.commitGroup [id])).1.content target)

/-- The two paths agree unless the final contents fit the target while some
contents on the way through the log do not. -/
theorem commitsAgree_iff (hrun : Run Ledger.step empty history ledger) (id : Nat)
    (txn : ValueTxn) (htxn : ledger.world.txns id = some txn) :
    ∃ snapshot store, ledger.snapshots id = some (txn.target, snapshot) ∧
      ledger.world.stores txn.target = some store ∧
      (CommitsAgree ledger.world id txn.target ↔
        snapshot.Conflicts store.findEntry ∨ ¬ FitsFinally store snapshot.net ∨
          FitsThroughout store snapshot.net) := by
  have hsound := sound_of_run hrun
  obtain ⟨snapshot, store, hsnapshot, hrepresents, hstore, hlimits⟩ := hsound.live id txn htxn
  refine ⟨snapshot, store, hsnapshot, hstore, ?_⟩
  have hgroup : ledger.GroupOn [id] txn.target :=
    ⟨by simp, List.nodup_singleton id, by simpa using ⟨snapshot, hsnapshot⟩⟩
  obtain ⟨found, hfound, houtcome⟩ := hsound.commitGroup_outcome hgroup (by simp [sizeMax, pointerBytes])
  rw [hstore, Option.some.injEq] at hfound
  subst hfound
  have hmember : [id].map ledger.snapshotOf = [snapshot] := by simp [snapshotOf, hsnapshot]
  rw [CommitsAgree]
  generalize (ledger.world.step (.commitGroup [id])).1 = world at houtcome ⊢
  generalize (ledger.world.step (.commitGroup [id])).2 = status at houtcome ⊢
  rcases txnCommit_cases htxn hstore hlimits hrepresents with
    ⟨hconflict, hcommit⟩ | ⟨hquiet, hlong, hcommit⟩ | ⟨hquiet, hshort, next, _, hlookup, hcommit⟩
  · cases houtcome with
    | conflicting => simp [World.step, hcommit, hconflict]
    | full hquiet =>
        rw [hmember, Snapshot.groupConflicts_singleton] at hquiet
        exact absurd hconflict hquiet
    | committed hquiet =>
        rw [hmember, Snapshot.groupConflicts_singleton] at hquiet
        exact absurd hconflict hquiet
  · cases houtcome with
    | conflicting hconflict =>
        rw [hmember, Snapshot.groupConflicts_singleton] at hconflict
        exact absurd hconflict hquiet
    | full _ hfull =>
        rw [hmember, Snapshot.groupNet_singleton] at hfull
        simp [World.step, hcommit, hfull]
    | committed _ hfits =>
        rw [hmember, Snapshot.groupNet_singleton] at hfits
        simp [World.step, hcommit, hquiet, hlong, hfits]
  · cases houtcome with
    | conflicting hconflict =>
        rw [hmember, Snapshot.groupConflicts_singleton] at hconflict
        exact absurd hconflict hquiet
    | full _ hfull =>
        rw [hmember, Snapshot.groupNet_singleton] at hfull
        exact absurd hshort.finally hfull
    | committed _ _ merged _ hmerged =>
        rw [hmember, Snapshot.groupNet_singleton] at hmerged
        have hsame : next.findEntry = merged.findEntry := hlookup.trans hmerged.symm
        simp [World.step, hcommit, hshort, World.content, World.txnAbort, World.withTxn,
          World.withStore, hsame]

theorem commitsAgree_iff_crowded :
    ∃ (txn : ValueTxn) (snapshot : TextSnapshot) (store : ValueStore),
      (drive step empty crowded).world.txns 0 = some txn ∧
      (CommitsAgree (drive step empty crowded).world 0 txn.target ↔
        snapshot.Conflicts store.findEntry ∨ ¬ FitsFinally store snapshot.net ∨
          FitsThroughout store snapshot.net) := by
  have hrun := run_drive step empty crowded
  obtain ⟨txn, htxn⟩ := exists_txn_crowded
  obtain ⟨snapshot, store, _, _, hagree⟩ := commitsAgree_iff hrun 0 txn htxn
  exact ⟨txn, snapshot, store, htxn, hagree⟩

/-- The log of `crowded` sets `a` before it erases `x`, so its replay passes through
three keys; the group commit erases first. -/
theorem commits_disagree :
    ¬ ∀ history ledger id txn, Run Ledger.step empty history ledger →
      ledger.world.txns id = some txn → CommitsAgree ledger.world id txn.target := by
  intro hagree
  have hrun := run_drive step empty crowded
  obtain ⟨txn, htxn⟩ := exists_txn_crowded
  have hstatus := (hagree _ _ 0 txn hrun htxn).1
  have hsingle : ((drive step empty crowded).world.step (.commit 0)).2 = .enospc := by decide
  have hgroup : ((drive step empty crowded).world.step (.commitGroup [0])).2 = .ok := by decide
  rw [hsingle, hgroup] at hstatus
  contradiction

/-! ## The group commit -/

/-- The exact effect of a group commit of `members` into `target`. -/
structure GroupSpec (ledger : Ledger) (ids : List Nat) (target : Nat) (store : ValueStore)
    (members : List TextSnapshot) (result : World × ValueStatus) : Prop where
  ok_iff : result.2 = .ok ↔
    (∀ member ∈ members, ∀ key ∈ member.touched, store.findEntry key = member.begun key) ∧
    (members.Pairwise fun first second => List.Disjoint first.touched second.touched) ∧
    (domain (overlay store.findEntry (Snapshot.groupNet members))).ncard ≤ store.limits.capacity
  committed : result.2 = .ok →
    result.1.content target = overlay store.findEntry (Snapshot.groupNet members) ∧
    (∀ other, other ≠ target → result.1.stores other = ledger.world.stores other) ∧
    ∀ id, result.1.txns id = if id ∈ ids then none else ledger.world.txns id
  refused : result.2 ≠ .ok → result.1 = ledger.world
  conflict_iff : result.2 = .econflict ↔ Snapshot.GroupConflicts members store.findEntry
  full_iff : result.2 = .enospc ↔ ¬ Snapshot.GroupConflicts members store.findEntry ∧
    store.limits.capacity < (domain (overlay store.findEntry (Snapshot.groupNet members))).ncard

theorem not_groupConflicts_iff {members : List TextSnapshot} {map : CString → Option CString} :
    ¬ Snapshot.GroupConflicts members map ↔
      (∀ member ∈ members, ∀ key ∈ member.touched, map key = member.begun key) ∧
      members.Pairwise fun first second => List.Disjoint first.touched second.touched := by
  rw [Snapshot.GroupConflicts, not_or, not_not]
  simp only [Snapshot.Conflicts, Snapshot.Separate, not_exists, not_and, not_not]

theorem GroupOutcome.spec {ids : List Nat} {target : Nat} {store : ValueStore} {world : World}
    {status : ValueStatus} (houtcome : GroupOutcome ledger ids target store world status) :
    GroupSpec ledger ids target store (ids.map ledger.snapshotOf) (world, status) := by
  cases houtcome with
  | conflicting hconflict =>
      refine ⟨?_, by simp, fun _ => rfl, by simp [hconflict], by simp [hconflict]⟩
      rw [← and_assoc, ← not_groupConflicts_iff]
      simp [hconflict]
  | full hquiet hfull =>
      refine ⟨?_, by simp, fun _ => rfl, by simp [hquiet], ?_⟩
      · rw [← and_assoc, ← not_groupConflicts_iff]
        simpa [hquiet, FitsFinally] using hfull
      · simpa [hquiet, FitsFinally] using hfull
  | committed hquiet hfits next hlimits hlookup =>
      obtain ⟨hstores, htxns⟩ := foldl_txnAbort ids (ledger.world.withStore target next)
      refine ⟨?_, fun _ => ⟨?_, ?_, htxns⟩, fun hne => absurd rfl hne, by simp [hquiet], ?_⟩
      · rw [← and_assoc, ← not_groupConflicts_iff]
        simpa [hquiet, FitsFinally] using hfits
      · rw [World.content, hstores]
        simpa [World.withStore] using hlookup
      · intro other hother
        rw [hstores]
        simp [World.withStore, hother]
      · simpa [hquiet, FitsFinally] using hfits

/-- The overlay of a group without conflicts does not depend on its order. -/
theorem overlay_groupNet_perm {first second : List TextSnapshot} {map : CString → Option CString}
    (hperm : first.Perm second) (hquiet : ¬ Snapshot.GroupConflicts first map) :
    overlay map (Snapshot.groupNet first) = overlay map (Snapshot.groupNet second) :=
  overlay_perm (Snapshot.groupNet_perm hperm)
    (Snapshot.nodup_groupNet (not_groupConflicts_iff.mp hquiet).2)

/-- Two orders of a group have the same outcome, slots apart. -/
theorem GroupOutcome.perm {ids order : List Nat} {target : Nat} {store : ValueStore}
    {world world' : World} {status status' : ValueStatus} (hperm : order.Perm ids)
    (houtcome : GroupOutcome ledger ids target store world status)
    (houtcome' : GroupOutcome ledger order target store world' status') :
    status' = status ∧ ∀ id, world'.content id = world.content id := by
  have hmembers := hperm.map ledger.snapshotOf
  have hconflicts := Snapshot.groupConflicts_perm hmembers store.findEntry
  have hoverlay (hquiet : ¬ Snapshot.GroupConflicts (order.map ledger.snapshotOf)
      store.findEntry) := overlay_groupNet_perm hmembers hquiet
  cases houtcome' with
  | conflicting hconflict =>
      cases houtcome with
      | conflicting => exact ⟨rfl, fun _ => rfl⟩
      | full hquiet => exact absurd (hconflicts.mp hconflict) hquiet
      | committed hquiet => exact absurd (hconflicts.mp hconflict) hquiet
  | full hquiet hfull =>
      cases houtcome with
      | conflicting hconflict => exact absurd (hconflicts.mpr hconflict) hquiet
      | full => exact ⟨rfl, fun _ => rfl⟩
      | committed _ hfits =>
          rw [FitsFinally, hoverlay hquiet] at hfull
          exact absurd hfits hfull
  | committed hquiet hfits next _ hlookup =>
      cases houtcome with
      | conflicting hconflict => exact absurd (hconflicts.mpr hconflict) hquiet
      | full _ hfull =>
          rw [FitsFinally, hoverlay hquiet] at hfits
          exact absurd hfits hfull
      | committed _ _ merged _ hmerged =>
          have hsame : next.findEntry = merged.findEntry := by
            rw [hlookup, hmerged, hoverlay hquiet]
          obtain ⟨hstores', _⟩ := foldl_txnAbort order (ledger.world.withStore target next)
          obtain ⟨hstores, _⟩ := foldl_txnAbort ids (ledger.world.withStore target merged)
          refine ⟨rfl, fun id => ?_⟩
          rw [World.content, World.content, hstores', hstores]
          by_cases hid : id = target <;> simp [World.withStore, hid, hsame]

/-- A group commit is a function of the set of its members: after any run, every
order of the same distinct live transactions gives the exact effect of
`GroupSpec`, the same answer and the same contents of every store.  The bound on
the number of handles is that of an array that fits the address space. -/
theorem commitGroup_exact (hrun : Run Ledger.step empty history ledger) (ids : List Nat)
    (target : Nat) (hnonempty : ids ≠ []) (hnodup : ids.Nodup)
    (hcount : ids.length ≤ sizeMax / pointerBytes)
    (hlive : ∀ id ∈ ids, ∃ txn, ledger.world.txns id = some txn ∧ txn.target = target) :
    ∃ store, ledger.world.stores target = some store ∧
      (∀ id ∈ ids, ledger.snapshots id = some (target, ledger.snapshotOf id)) ∧
      GroupSpec ledger ids target store (ids.map ledger.snapshotOf)
        (ledger.world.step (.commitGroup ids)) ∧
      ∀ order, order.Perm ids →
        (ledger.world.step (.commitGroup order)).2 = (ledger.world.step (.commitGroup ids)).2 ∧
        ∀ id, (ledger.world.step (.commitGroup order)).1.content id =
          (ledger.world.step (.commitGroup ids)).1.content id := by
  have hsound := sound_of_run hrun
  have hrecorded : ∀ id ∈ ids, ledger.snapshots id = some (target, ledger.snapshotOf id) := by
    intro id hid
    obtain ⟨txn, htxn, rfl⟩ := hlive id hid
    obtain ⟨snapshot, _, hsnapshot, _⟩ := hsound.live id txn htxn
    simp [snapshotOf, hsnapshot]
  have hgroup : ledger.GroupOn ids target :=
    ⟨hnonempty, hnodup, fun id hid => ⟨_, hrecorded id hid⟩⟩
  obtain ⟨store, hstore, houtcome⟩ := hsound.commitGroup_outcome hgroup hcount
  refine ⟨store, hstore, hrecorded, houtcome.spec, fun order hperm => ?_⟩
  have horder : ledger.GroupOn order target :=
    ⟨fun hnil => hnonempty (by simpa [hnil] using hperm.symm), hperm.nodup_iff.mpr hnodup,
      fun id hid => hgroup.live id (hperm.mem_iff.mp hid)⟩
  obtain ⟨found, hfound, houtcome'⟩ :=
    hsound.commitGroup_outcome horder (hperm.length_eq ▸ hcount)
  rw [hstore, Option.some.injEq] at hfound
  subst hfound
  exact houtcome.perm hperm houtcome'

/-- Two transactions on one store that write different keys. -/
def paired : List ValueRequest :=
  [.init 0 ⟨2, 4, 4⟩, .begin 0 0, .begin 1 0,
    .txnSet 0 (some (.literal "a")) (some (.literal "1")),
    .txnSet 1 (some (.literal "b")) (some (.literal "2"))]

theorem commitGroup_exact_paired :
    ∃ store, GroupSpec (drive step empty paired) [0, 1] 0 store
        ([0, 1].map (drive step empty paired).snapshotOf)
        ((drive step empty paired).world.step (.commitGroup [0, 1])) ∧
      ((drive step empty paired).world.step (.commitGroup [1, 0])).2 =
        ((drive step empty paired).world.step (.commitGroup [0, 1])).2 := by
  have hrun := run_drive step empty paired
  have hfirst : ((drive step empty paired).world.txns 0).map ValueTxn.target = some 0 := by decide
  have hsecond : ((drive step empty paired).world.txns 1).map ValueTxn.target = some 0 := by decide
  have hlive : ∀ id ∈ [0, 1], ∃ txn, (drive step empty paired).world.txns id = some txn ∧
      txn.target = 0 := by
    intro id hid
    rcases List.mem_pair.mp hid with rfl | rfl
    · exact Option.map_eq_some_iff.mp hfirst
    · exact Option.map_eq_some_iff.mp hsecond
  obtain ⟨store, _, _, hspec, hperm⟩ := commitGroup_exact hrun [0, 1] 0 (by simp) (by simp)
    (by simp [sizeMax, pointerBytes]) hlive
  exact ⟨store, hspec, (hperm [1, 0] (List.Perm.swap 0 1 [])).1⟩

end Ledger

end Praktor.Values
