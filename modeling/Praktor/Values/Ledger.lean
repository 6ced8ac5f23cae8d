/-
# Transactions refine optimistic snapshots

The abstract transaction of `Math.Optimistic` has no working store, no log and no
capacity.  This module relates each live transaction of a world to such a
snapshot and shows that every call keeps the relation, whatever is written to the
target in between.  The snapshots are recorded beside the world in a ledger whose
entries follow only from the requests and their replies, so that statements about
"the value at the beginning" or "the keys touched" do not read the implementation.
-/

import Praktor.Math.Run
import Praktor.Values.Replay

namespace Praktor.Values

open Praktor.Data Praktor.Math Praktor.Math.SlotTable

/-- A transaction as a snapshot of text values. -/
abbrev TextSnapshot := Snapshot CString CString

/-- A transaction implements a snapshot. -/
structure Represents (txn : ValueTxn) (snapshot : TextSnapshot) : Prop where
  baseline_eq : txn.baseline.findEntry = snapshot.begun
  working_eq : txn.working.findEntry = snapshot.working
  touched_eq : txn.keys = snapshot.touched
  limits_eq : txn.working.limits = txn.baseline.limits
  capacity_eq : txn.opCapacity = txn.baseline.limits.capacity
  ops_le : txn.ops.length ≤ txn.opCapacity
  keys_fit : ∀ key ∈ txn.keys, txn.baseline.limits.fitsKey key

namespace ValueTxn

/-! ## Writing through the log -/

/-- The log has the key already or has room for it. -/
def logAdmits (txn : ValueTxn) (key : CString) : Bool :=
  key ∈ txn.keys || txn.ops.length < txn.opCapacity

/-- The log after a key has been touched. -/
def logged (txn : ValueTxn) (key : CString) : List TxnOp :=
  if key ∈ txn.keys then txn.ops else txn.ops ++ [⟨key, txn.baseline.findEntry key⟩]

theorem record_eq (txn : ValueTxn) (key : CString) :
    txn.record key = if txn.logAdmits key then ({ txn with ops := txn.logged key }, .ok)
      else (txn, .enospc) := by
  rw [record, logAdmits, logged]
  by_cases hmem : key ∈ txn.keys
  · simp [hmem]
  · by_cases hroom : txn.ops.length < txn.opCapacity
    · simp [hmem, hroom, Nat.not_le.mpr hroom]
    · simp [hmem, hroom, Nat.le_of_not_lt hroom]

/-- A transactional set answers what the working copy answers, unless the log
refuses the key. -/
theorem set_eq (txn : ValueTxn) (key value : Option CString) :
    txn.set key value =
      if (txn.working.set key value).2 = .ok then
        match key with
        | none => (txn, .einval)
        | some key =>
            if txn.logAdmits key then
              ({ txn with ops := txn.logged key, working := (txn.working.set key value).1 }, .ok)
            else (txn, .enospc)
      else (txn, (txn.working.set key value).2) := by
  cases key with
  | none => simp [set, ValueStore.set]
  | some key =>
      cases value with
      | none => simp [set, ValueStore.set]
      | some value =>
          by_cases hempty : boundedLength key txn.working.limits.maxKeyBytes = 0 ∨
              boundedLength key txn.working.limits.maxKeyBytes = sizeMax
          · simp [set, ValueStore.set, hempty]
          by_cases hlong : boundedLength key txn.working.limits.maxKeyBytes >
              txn.working.limits.maxKeyBytes ∨
              boundedLength value txn.working.limits.maxValueBytes >
                txn.working.limits.maxValueBytes
          · simp [set, ValueStore.set, hempty, hlong]
          obtain ⟨hkey, hvalue⟩ := fits_of_lengths hempty hlong
          have hnone := ValueStore.put_eq_none_iff txn.working key value
          rcases set_staged hkey hvalue with ⟨hfull, hset⟩ | ⟨next, hput, _, hset⟩
          · have hspace := hnone.mp hfull
            simp only [set, hempty, hlong, hspace, if_true, if_false, hset, and_self]
            simp
          · have hspace : ¬ (txn.working.findEntry key = none ∧
                txn.working.size ≥ txn.working.limits.capacity) := by
              rw [← hnone, hput]
              simp
            by_cases hlog : txn.logAdmits key
            · simp [set, hempty, hlong, hspace, hset, record_eq, hlog]
            · simp [set, hempty, hlong, hspace, hset, record_eq, hlog]

/-- The same for a transactional erase. -/
theorem erase_eq (txn : ValueTxn) (key : Option CString) :
    txn.erase key =
      if (txn.working.erase key).2 = .ok then
        match key with
        | none => (txn, .einval)
        | some key =>
            if txn.logAdmits key then
              ({ txn with ops := txn.logged key, working := (txn.working.erase key).1 }, .ok)
            else (txn, .enospc)
      else (txn, (txn.working.erase key).2) := by
  cases key with
  | none => simp [erase, ValueStore.erase]
  | some key =>
      by_cases hadmits : txn.working.admitsKey key = true
      · by_cases hfound : txn.working.findEntry key = none
        · simp [erase, ValueStore.erase, hadmits, hfound]
        · by_cases hlog : txn.logAdmits key = true
          · simp [erase, ValueStore.erase, hadmits, hfound, record_eq, hlog]
          · simp [erase, ValueStore.erase, hadmits, hfound, record_eq, hlog]
      · simp [erase, ValueStore.erase, hadmits]

end ValueTxn

/-! ## Keeping the relation -/

namespace Represents

variable {txn : ValueTxn} {snapshot : TextSnapshot}

theorem keys_logged (txn : ValueTxn) (key : CString) :
    (txn.logged key).map TxnOp.key = Snapshot.touch txn.keys key := by
  rw [ValueTxn.logged, Snapshot.touch]
  by_cases hmem : key ∈ txn.keys
  · rw [if_pos hmem, if_pos hmem]
    rfl
  · rw [if_neg hmem, if_neg hmem, List.map_append]
    rfl

/-- A new transaction implements a new snapshot. -/
theorem opened (target : Nat) (base : ValueStore) :
    Represents ⟨target, base, base, base.limits.capacity, []⟩ (.opened base.findEntry) :=
  ⟨rfl, rfl, rfl, rfl, rfl, Nat.zero_le _, by simp [ValueTxn.keys]⟩

/-- A logged write to the working copy is a write to the snapshot. -/
theorem write (hrepresents : Represents txn snapshot) {key : CString} {value : Option CString}
    {working : ValueStore} (hlog : txn.logAdmits key = true)
    (hkey : txn.working.limits.fitsKey key) (hlimits : working.limits = txn.working.limits)
    (hworking : working.findEntry = Function.update txn.working.findEntry key value) :
    Represents { txn with ops := txn.logged key, working := working }
      (snapshot.write key value) := by
  obtain ⟨hbaseline, hcopy, htouched, hsame, hcapacity, hle, hkeys⟩ := hrepresents
  refine ⟨hbaseline, ?_, ?_, hlimits.trans hsame, hcapacity, ?_, ?_⟩
  · show working.findEntry = Function.update snapshot.working key value
    rw [hworking, hcopy]
  · show (txn.logged key).map TxnOp.key = Snapshot.touch snapshot.touched key
    rw [keys_logged, htouched]
  · show (txn.logged key).length ≤ txn.opCapacity
    rw [ValueTxn.logAdmits, Bool.or_eq_true, decide_eq_true_eq, decide_eq_true_eq] at hlog
    rw [ValueTxn.logged]
    by_cases hmem : key ∈ txn.keys
    · rwa [if_pos hmem]
    · have hroom := hlog.resolve_left hmem
      rw [if_neg hmem, List.length_append, List.length_singleton]
      exact hroom
  · intro other hother
    have hcases : other ∈ Snapshot.touch txn.keys key := keys_logged txn key ▸ hother
    rcases Snapshot.mem_touch.mp hcases with rfl | hold
    · exact hsame ▸ hkey
    · exact hkeys other hold

/-- A successful transactional set writes the snapshot; any other one does nothing. -/
theorem set (hrepresents : Represents txn snapshot) (key value : Option CString) :
    ((txn.set key value).2 ≠ .ok ∧ (txn.set key value).1 = txn) ∨
      ∃ newKey newValue, key = some newKey ∧ value = some newValue ∧
        (txn.set key value).2 = .ok ∧ (txn.set key value).1.target = txn.target ∧
        (txn.set key value).1.baseline = txn.baseline ∧
        Represents (txn.set key value).1 (snapshot.write newKey (some newValue)) := by
  have hspec := txn.working.set_spec key value
  rw [ValueTxn.set_eq]
  by_cases hok : (txn.working.set key value).2 = .ok
  · obtain ⟨newKey, newValue, rfl, rfl, hfits, _, hupdated⟩ := hspec.updated hok
    by_cases hlog : txn.logAdmits newKey = true
    · refine .inr ⟨newKey, newValue, rfl, rfl, ?_⟩
      simp only [hok, hlog, if_true, true_and]
      exact hrepresents.write hlog hfits hspec.limits_eq hupdated
    · exact .inl (by simp [hok, hlog])
  · exact .inl (by simp [hok])

/-- The same for a transactional erase. -/
theorem erase (hrepresents : Represents txn snapshot) (key : Option CString) :
    ((txn.erase key).2 ≠ .ok ∧ (txn.erase key).1 = txn) ∨
      ∃ oldKey, key = some oldKey ∧ (txn.erase key).2 = .ok ∧
        (txn.erase key).1.target = txn.target ∧ (txn.erase key).1.baseline = txn.baseline ∧
        Represents (txn.erase key).1 (snapshot.write oldKey none) := by
  have hspec := txn.working.erase_spec key
  rw [ValueTxn.erase_eq]
  by_cases hok : (txn.working.erase key).2 = .ok
  · obtain ⟨oldKey, rfl, hfits, _, hentries⟩ := hspec.updated hok
    by_cases hlog : txn.logAdmits oldKey = true
    · refine .inr ⟨oldKey, rfl, ?_⟩
      simp only [hok, hlog, if_true, true_and]
      exact hrepresents.write hlog hfits hspec.limits_eq
        (ValueStore.findEntry_of_erase hentries)
    · exact .inl (by simp [hok, hlog])
  · exact .inl (by simp [hok])

/-- The log amounts to the net effect of the snapshot. -/
theorem logNet_eq (hrepresents : Represents txn snapshot) :
    logNet txn.working txn.ops = snapshot.net := by
  rw [logNet, Snapshot.net, ← hrepresents.touched_eq, ← hrepresents.working_eq, ValueTxn.keys,
    List.map_map]
  rfl

/-- The conflict loop of a transaction looks for a conflict of the snapshot. -/
theorem conflict_iff (hrepresents : Represents txn snapshot) (target : ValueStore) :
    (txn.ops.any fun op => !sameKey target txn.baseline op.key) = true ↔
      snapshot.Conflicts target.findEntry := by
  rw [List.any_eq_true, Snapshot.Conflicts, ← hrepresents.touched_eq, ← hrepresents.baseline_eq,
    ValueTxn.keys]
  simp only [Bool.not_eq_true', ← Bool.not_eq_true, sameKey_iff, List.mem_map]
  constructor
  · rintro ⟨op, hop, hdiffers⟩
    exact ⟨op.key, ⟨op, hop, rfl⟩, hdiffers⟩
  · rintro ⟨_, ⟨op, hop, rfl⟩, hdiffers⟩
    exact ⟨op, hop, hdiffers⟩

end Represents

/-! ## The single commit -/

/-- Every map on the way of a replay in log order fits the store. -/
def FitsThroughout (store : ValueStore) (writes : List (CString × Option CString)) : Prop :=
  ∀ count, (domain (overlay store.findEntry (writes.take count))).ncard ≤ store.limits.capacity

/-- The final map of a net effect fits the store. -/
def FitsFinally (store : ValueStore) (writes : List (CString × Option CString)) : Prop :=
  (domain (overlay store.findEntry writes)).ncard ≤ store.limits.capacity

theorem FitsThroughout.finally {store : ValueStore} {writes : List (CString × Option CString)}
    (hfits : FitsThroughout store writes) : FitsFinally store writes := by
  have hlast := hfits writes.length
  rwa [List.take_length] at hlast

/-- A single commit whose allocations succeed. -/
theorem txnCommit_cases {world : World} {id : Nat} {txn : ValueTxn} {store : ValueStore}
    {snapshot : TextSnapshot} (htxn : world.txns id = some txn)
    (hstore : world.stores txn.target = some store) (hlimits : store.limits = txn.baseline.limits)
    (hrepresents : Represents txn snapshot) :
    (snapshot.Conflicts store.findEntry ∧ world.txnCommit id [] = (world, .econflict, [])) ∨
    (¬ snapshot.Conflicts store.findEntry ∧ ¬ FitsThroughout store snapshot.net ∧
      world.txnCommit id [] = (world, .enospc, [])) ∨
    (¬ snapshot.Conflicts store.findEntry ∧ FitsThroughout store snapshot.net ∧
      ∃ next : ValueStore, next.limits = store.limits ∧
        next.findEntry = overlay store.findEntry snapshot.net ∧
        world.txnCommit id [] = ((world.withStore txn.target next).txnAbort id, .ok, [])) := by
  have hconflict := hrepresents.conflict_iff store
  by_cases hdiffers : snapshot.Conflicts store.findEntry
  · refine .inl ⟨hdiffers, ?_⟩
    simp [World.txnCommit, htxn, hstore, hconflict.mpr hdiffers]
  have hnone : (txn.ops.any fun op => !sameKey store txn.baseline op.key) = false := by
    rw [← Bool.not_eq_true, hconflict]
    exact hdiffers
  have hkeys : ∀ op ∈ txn.ops, txn.working.limits.fitsKey op.key := fun op hop =>
    hrepresents.limits_eq ▸ hrepresents.keys_fit op.key (List.mem_map_of_mem hop)
  have hreplays := replayOps_replays txn.working txn.ops store
    (hlimits.trans hrepresents.limits_eq.symm) hkeys
  rw [hrepresents.logNet_eq] at hreplays
  have hnodup : (touchedBy snapshot.net).Nodup := by
    rw [Snapshot.touchedBy_net]
    exact snapshot.nodup
  have hfits : (replay snapshot.net store.entries).isSome = true ↔
      FitsThroughout store snapshot.net := by
    rw [replay_isSome_iff store.entries hnodup, store.length_eq]
    rfl
  rw [← hfits]
  right
  rcases hreplays.spec hnodup with ⟨hstatus, hfull⟩ | ⟨next, hresult, hsome, hnext, hlookup⟩
  · refine .inl ⟨hdiffers, hfull, ?_⟩
    simp [World.txnCommit, htxn, hstore, hnone, hstatus]
  · refine .inr ⟨hdiffers, hsome, next, hnext, hlookup, ?_⟩
    simp [World.txnCommit, htxn, hstore, hnone, hresult]

/-! ## The group commit -/

/-- The members of a group, each with the snapshot it implements. -/
abbrev Members := List (ValueTxn × TextSnapshot)

namespace Members

/-- The transactions of the members. -/
def txns (members : Members) : List ValueTxn := members.map Prod.fst

/-- The snapshots of the members. -/
def snapshots (members : Members) : List TextSnapshot := members.map Prod.snd

/-- Each member implements its snapshot, with the limits of the target. -/
def Represent (members : Members) (limits : StoreLimits) : Prop :=
  ∀ member ∈ members, Represents member.1 member.2 ∧ limits = member.1.baseline.limits

variable {members : Members} {limits : StoreLimits}

theorem Represent.tail {member : ValueTxn × TextSnapshot}
    (hrepresent : Represent (member :: members) limits) : Represent members limits :=
  fun other hother => hrepresent other (List.mem_cons_of_mem _ hother)

theorem Represent.opsNet_eq (hrepresent : members.Represent limits) :
    opsNet (groupOps members.txns) = Snapshot.groupNet members.snapshots := by
  induction members with
  | nil => rfl
  | cons member rest ih =>
      obtain ⟨hmember, _⟩ := hrepresent member (by simp)
      have hnet : opsNet (member.1.ops.map fun op => (member.1.working, op)) = member.2.net := by
        rw [opsNet, List.map_map]
        exact hmember.logNet_eq
      have hcons : opsNet (groupOps (txns (member :: rest))) =
          opsNet (member.1.ops.map fun op => (member.1.working, op)) ++
            opsNet (groupOps (txns rest)) := by
        simp [opsNet, groupOps, txns]
      rw [hcons, hnet, ih hrepresent.tail]
      rfl

theorem Represent.opsFit (hrepresent : members.Represent limits) :
    OpsFit limits (groupOps members.txns) := by
  intro entry hentry
  obtain ⟨txn, htxn, hpair⟩ := List.mem_flatMap.mp hentry
  obtain ⟨op, hop, rfl⟩ := List.mem_map.mp hpair
  obtain ⟨member, hmember, rfl⟩ := List.mem_map.mp htxn
  obtain ⟨hrepresents, hlimits⟩ := hrepresent member hmember
  exact ⟨hrepresents.limits_eq.trans hlimits.symm,
    hlimits ▸ hrepresents.keys_fit op.key (List.mem_map_of_mem hop)⟩

/-- A key of one member is logged by a later one. -/
theorem Represent.shared_iff (hrepresent : members.Represent limits) {key : CString} :
    (members.txns.any fun other => other.ops.any fun later => later.key = key) = true ↔
      ∃ snapshot ∈ members.snapshots, key ∈ snapshot.touched := by
  simp only [List.any_eq_true, decide_eq_true_eq, txns, snapshots, List.mem_map]
  constructor
  · rintro ⟨_, ⟨member, hmember, rfl⟩, op, hop, rfl⟩
    refine ⟨member.2, ⟨member, hmember, rfl⟩, ?_⟩
    rw [← (hrepresent member hmember).1.touched_eq]
    exact List.mem_map_of_mem hop
  · rintro ⟨_, ⟨member, hmember, rfl⟩, htouched⟩
    rw [← (hrepresent member hmember).1.touched_eq] at htouched
    obtain ⟨op, hop, hkey⟩ := List.mem_map.mp htouched
    exact ⟨member.1, ⟨member, hmember, rfl⟩, op, hop, hkey⟩

/-- The conflict loops of a group look for a conflict of the group. -/
theorem Represent.conflict_iff (hrepresent : members.Represent limits) (target : ValueStore) :
    groupConflict target members.txns = true ↔
      Snapshot.GroupConflicts members.snapshots target.findEntry := by
  induction members with
  | nil => simp [txns, snapshots, groupConflict, Snapshot.GroupConflicts, Snapshot.Separate]
  | cons member rest ih =>
      obtain ⟨hmember, _⟩ := hrepresent member (by simp)
      have hhead : (member.1.ops.any fun op => !sameKey target member.1.baseline op.key ||
          (txns rest).any fun other => other.ops.any fun later => later.key = op.key) = true ↔
          member.2.Conflicts target.findEntry ∨
            ∃ snapshot ∈ snapshots rest, ¬ List.Disjoint member.2.touched snapshot.touched := by
        rw [← hmember.conflict_iff target]
        simp only [List.any_eq_true, Bool.or_eq_true, and_or_left, exists_or,
          hrepresent.tail.shared_iff, List.Disjoint, not_forall, not_not, exists_prop, imp_false,
          ← hmember.touched_eq]
        refine or_congr_right ?_
        constructor
        · rintro ⟨op, hop, snapshot, hsnapshot, htouched⟩
          exact ⟨snapshot, hsnapshot, op.key, List.mem_map_of_mem hop, htouched⟩
        · rintro ⟨snapshot, hsnapshot, key, hkey, htouched⟩
          obtain ⟨op, hop, rfl⟩ := List.mem_map.mp hkey
          exact ⟨op, hop, snapshot, hsnapshot, htouched⟩
      have hsplit : Snapshot.GroupConflicts (snapshots (member :: rest)) target.findEntry ↔
          (member.2.Conflicts target.findEntry ∨
            ∃ snapshot ∈ snapshots rest, ¬ List.Disjoint member.2.touched snapshot.touched) ∨
          Snapshot.GroupConflicts (snapshots rest) target.findEntry := by
        simp only [Snapshot.GroupConflicts, Snapshot.Separate, snapshots, List.map_cons,
          List.pairwise_cons, List.mem_cons, exists_eq_or_imp, not_and_or, not_forall, exists_prop]
        exact or_or_or_comm
      rw [hsplit, ← hhead, ← ih hrepresent.tail, txns, List.map_cons, groupConflict,
        Bool.or_eq_true]
      rfl

end Members

/-- The members have been read and found to share the target: the passes of a
group commit replay their net effect with the removals first. -/
theorem groupPasses_cases {members : Members} {store : ValueStore}
    (hrepresent : members.Represent store.limits)
    (hquiet : ¬ Snapshot.GroupConflicts members.snapshots store.findEntry) :
    (removalPass (groupOps members.txns) store).2 = .ok ∧
      (((writePass (groupOps members.txns) (removalPass (groupOps members.txns) store).1).2 =
          .enospc ∧ ¬ FitsFinally store (Snapshot.groupNet members.snapshots)) ∨
        ∃ next : ValueStore,
          writePass (groupOps members.txns) (removalPass (groupOps members.txns) store).1 =
            (next, .ok) ∧ FitsFinally store (Snapshot.groupNet members.snapshots) ∧
          next.limits = store.limits ∧
          next.findEntry = overlay store.findEntry (Snapshot.groupNet members.snapshots)) := by
  obtain ⟨hremovals, hreplays⟩ := passes_replay hrepresent.opsFit
  rw [hrepresent.opsNet_eq] at hreplays
  have hseparate : Snapshot.Separate members.snapshots := by
    rw [Snapshot.GroupConflicts, not_or, not_not] at hquiet
    exact hquiet.2
  have hnodup := Snapshot.nodup_groupNet hseparate
  have hperm := removalsFirst_perm (Snapshot.groupNet members.snapshots)
  have hordered : (touchedBy (removalsFirst (Snapshot.groupNet members.snapshots))).Nodup :=
    (hperm.map Prod.fst).nodup_iff.mpr hnodup
  have hfits : (replay (removalsFirst (Snapshot.groupNet members.snapshots))
      store.entries).isSome = true ↔ FitsFinally store (Snapshot.groupNet members.snapshots) := by
    rw [replay_removalsFirst_isSome_iff store.entries hnodup, store.length_eq]
    rfl
  refine ⟨hremovals, ?_⟩
  rw [← hfits]
  rcases hreplays.spec hordered with ⟨hstatus, hfull⟩ | ⟨next, hresult, hsome, hnext, hlookup⟩
  · exact .inl ⟨hstatus, hfull⟩
  · exact .inr ⟨next, hresult, hsome, hnext, hlookup.trans (overlay_perm hperm hordered)⟩

/-! ## Reading the members -/

namespace World

variable {world : World}

/-- A group that was read has distinct handles on one target. -/
theorem gather_spec :
    ∀ {ids seen : List Nat} {target last : Option Nat} {txns : List ValueTxn},
      world.gather ids seen target = some (txns, last) →
      ids.map world.txns = txns.map some ∧ ids.Nodup ∧ (∀ id ∈ ids, id ∉ seen) ∧
        (∀ txn ∈ txns, last = some txn.target) ∧ (target ≠ none → last = target) := by
  intro ids
  induction ids with
  | nil =>
      intro seen target last txns hgather
      simp only [gather, Option.some.injEq, Prod.mk.injEq] at hgather
      obtain ⟨rfl, rfl⟩ := hgather
      simp
  | cons id rest ih =>
      intro seen target last txns hgather
      rw [gather] at hgather
      cases htxn : world.txns id with
      | none => simp [htxn] at hgather
      | some txn =>
          simp only [htxn] at hgather
          split at hgather
          · contradiction
          rename_i hchecks
          obtain ⟨⟨others, final⟩, hrest, hpair⟩ := Option.map_eq_some_iff.mp hgather
          simp only [Prod.mk.injEq] at hpair
          obtain ⟨rfl, rfl⟩ := hpair
          obtain ⟨hmap, hnodup, hfresh, htargets, hfinal⟩ := ih hrest
          have hlast : final = some txn.target := hfinal (by simp)
          simp only [Bool.or_eq_true, decide_eq_true_eq, Bool.and_eq_true, not_or, not_and,
            not_not] at hchecks
          refine ⟨by simp [htxn, hmap], ?_, ?_, ?_, ?_⟩
          · refine List.nodup_cons.mpr ⟨fun hmem => ?_, hnodup⟩
            exact hfresh id hmem (by simp)
          · intro other hother
            rcases List.mem_cons.mp hother with rfl | hlater
            · exact hchecks.2
            · exact fun hseen => hfresh other hlater (by simp [hseen])
          · intro other hother
            rcases List.mem_cons.mp hother with rfl | hlater
            · exact hlast
            · exact htargets other hlater
          · intro htarget
            exact hlast.trans (hchecks.1.2 htarget).symm

/-- Distinct live transactions on one target are read. -/
theorem gather_of_live (world : World) {goal : Nat} (hgoal : (world.stores goal).isSome = true) :
    ∀ (ids seen : List Nat) (target : Option Nat),
      (∀ id ∈ ids, ∃ txn, world.txns id = some txn ∧ txn.target = goal) → ids.Nodup →
      (∀ id ∈ ids, id ∉ seen) → (target = none ∨ target = some goal) →
      ∃ txns last, world.gather ids seen target = some (txns, last) ∧
        (ids ≠ [] → last = some goal) := by
  intro ids
  induction ids with
  | nil =>
      intro seen target _ _ _ _
      exact ⟨[], target, rfl, fun hne => absurd rfl hne⟩
  | cons id rest ih =>
      intro seen target hlive hnodup hfresh htarget
      obtain ⟨hid, hrest⟩ := List.nodup_cons.mp hnodup
      obtain ⟨txn, htxn, rfl⟩ := hlive id (by simp)
      have hseen : id ∉ seen := hfresh id (by simp)
      obtain ⟨txns, last, hgather, hlast⟩ := ih (id :: seen) (some txn.target)
        (fun other hother => hlive other (by simp [hother])) hrest
        (fun other hother => by
          have hne : other ≠ id := fun hequal => hid (hequal ▸ hother)
          simp [hne, hfresh other (by simp [hother])]) (.inr rfl)
      refine ⟨txn :: txns, last, ?_, fun _ => ?_⟩
      · have hmatch : ¬ (target ≠ none ∧ target ≠ some txn.target) := by
          rcases htarget with rfl | rfl <;> simp
        have hpresent : (world.stores txn.target).isNone = false := by
          rwa [Option.isNone_eq_false_iff]
        rw [gather]
        simp only [htxn, hpresent, Bool.false_or, Bool.or_eq_true, Bool.and_eq_true,
          decide_eq_true_eq, hmatch, hseen, or_self, if_false, hgather, Option.map_some]
      · exact (gather_spec hgather).2.2.2.2 (by simp)

end World

/-! ## The ledger -/

/-- The contents of a store as a partial map; nothing behind a null handle. -/
def World.content (world : World) (id : Nat) : CString → Option CString :=
  ((world.stores id).map ValueStore.findEntry).getD fun _ => none

/-- A world with the snapshots that its calls have built: for each live
transaction its target and the snapshot. -/
structure Ledger where
  world : World
  snapshots : Nat → Option (Nat × TextSnapshot)

namespace Ledger

/-- Nothing has been created. -/
def empty : Ledger := ⟨.empty, fun _ => none⟩

/-- Rewrite the snapshot of a live transaction. -/
def amend (ledger : Ledger) (id : Nat) (change : TextSnapshot → TextSnapshot) :
    Nat → Option (Nat × TextSnapshot) :=
  Function.update ledger.snapshots id
    ((ledger.snapshots id).map fun entry => (entry.1, change entry.2))

/-- The snapshots after a call that was answered with `OK`. -/
def observe (ledger : Ledger) : ValueRequest → Nat → Option (Nat × TextSnapshot)
  | .begin txn store =>
      Function.update ledger.snapshots txn
        (some (store, .opened (ledger.world.content store)))
  | .txnSet txn (some key) (some value) =>
      ledger.amend txn fun snapshot => snapshot.write key (some value)
  | .txnErase txn (some key) => ledger.amend txn fun snapshot => snapshot.write key none
  | .commit txn => Function.update ledger.snapshots txn none
  | .commitGroup txns => fun id => if id ∈ txns then none else ledger.snapshots id
  | .abort txn => Function.update ledger.snapshots txn none
  | _ => ledger.snapshots

/-- Serve one call and record what it did. -/
def step (ledger : Ledger) (request : ValueRequest) : Ledger × ValueStatus :=
  let (world, status) := ledger.world.step request
  (⟨world, if status = .ok then ledger.observe request else ledger.snapshots⟩, status)

/-- Every live transaction implements its recorded snapshot, and its target is
there with the limits it had at the beginning. -/
structure Sound (ledger : Ledger) : Prop where
  live : ∀ id txn, ledger.world.txns id = some txn → ∃ snapshot store,
    ledger.snapshots id = some (txn.target, snapshot) ∧ Represents txn snapshot ∧
    ledger.world.stores txn.target = some store ∧ store.limits = txn.baseline.limits
  recorded : ∀ id, ledger.world.txns id = none → ledger.snapshots id = none

end Ledger

/-- The stores of one world are still there in another, with the same limits. -/
def StoresKept (before after : World) : Prop :=
  ∀ id store, before.stores id = some store →
    ∃ next, after.stores id = some next ∧ next.limits = store.limits

theorem StoresKept.withStore {world : World} {id : Nat} {next : ValueStore}
    (hlimits : ∀ store, world.stores id = some store → next.limits = store.limits) :
    StoresKept world (world.withStore id next) := by
  intro other store hstore
  by_cases hother : other = id
  · subst hother
    exact ⟨next, by simp [World.withStore], hlimits store hstore⟩
  · exact ⟨store, by simpa [World.withStore, hother] using hstore, rfl⟩

namespace Ledger

variable {ledger : Ledger}

theorem empty_sound : empty.Sound :=
  ⟨fun id txn htxn => by simp [empty, World.empty] at htxn, fun _ _ => rfl⟩

/-- A change of stores alone keeps the ledger sound. -/
theorem Sound.stores (hsound : ledger.Sound) {world : World}
    (hkept : StoresKept ledger.world world) (htxns : world.txns = ledger.world.txns) :
    Sound ⟨world, ledger.snapshots⟩ := by
  refine ⟨fun id txn htxn => ?_, fun id hnone => hsound.recorded id (htxns ▸ hnone)⟩
  obtain ⟨snapshot, store, hsnapshot, hrepresents, hstore, hlimits⟩ :=
    hsound.live id txn (htxns ▸ htxn)
  obtain ⟨next, hnext, hsame⟩ := hkept _ store hstore
  exact ⟨snapshot, next, hsnapshot, hrepresents, hnext, hsame.trans hlimits⟩

/-- Replacing one transaction together with its snapshot keeps the ledger sound. -/
theorem Sound.withTxn (hsound : ledger.Sound) (id : Nat) {txn : ValueTxn} {store : ValueStore}
    {snapshot : TextSnapshot} (hrepresents : Represents txn snapshot)
    (hstore : ledger.world.stores txn.target = some store)
    (hlimits : store.limits = txn.baseline.limits) :
    Sound ⟨ledger.world.withTxn id (some txn),
      Function.update ledger.snapshots id (some (txn.target, snapshot))⟩ := by
  refine ⟨fun other found hfound => ?_, fun other hnone => ?_⟩
  · by_cases hother : other = id
    · subst hother
      obtain rfl : txn = found := by simpa [World.withTxn] using hfound
      exact ⟨snapshot, store, by simp, hrepresents, hstore, hlimits⟩
    · simp only [World.withTxn, Function.update_of_ne hother] at hfound ⊢
      exact hsound.live other found hfound
  · by_cases hother : other = id
    · subst hother
      simp [World.withTxn] at hnone
    · simp only [World.withTxn, Function.update_of_ne hother] at hnone ⊢
      exact hsound.recorded other hnone

/-- Dropping transactions together with their snapshots keeps the ledger sound. -/
theorem Sound.dropped (hsound : ledger.Sound) (ids : List Nat) {world : World}
    {snapshots : Nat → Option (Nat × TextSnapshot)}
    (hstores : world.stores = ledger.world.stores)
    (htxns : ∀ id, world.txns id = if id ∈ ids then none else ledger.world.txns id)
    (hsnapshots : ∀ id, snapshots id = if id ∈ ids then none else ledger.snapshots id) :
    Sound ⟨world, snapshots⟩ := by
  refine ⟨fun id txn htxn => ?_, fun id hnone => ?_⟩
  · by_cases hid : id ∈ ids
    · simp [htxns, hid] at htxn
    · simp only [htxns, if_neg hid] at htxn
      simpa [hsnapshots, hid, hstores] using hsound.live id txn htxn
  · by_cases hid : id ∈ ids
    · simp [hsnapshots, hid]
    · simp only [htxns, if_neg hid] at hnone
      simpa [hsnapshots, hid] using hsound.recorded id hnone

/-! ## A group commit on a sound ledger -/

/-- The snapshot recorded for a handle. -/
def snapshotOf (ledger : Ledger) (id : Nat) : TextSnapshot :=
  ((ledger.snapshots id).map Prod.snd).getD (.opened fun _ => none)

/-- Distinct live transactions on one target, at least one. -/
structure GroupOn (ledger : Ledger) (ids : List Nat) (target : Nat) : Prop where
  nonempty : ids ≠ []
  nodup : ids.Nodup
  live : ∀ id ∈ ids, ∃ snapshot, ledger.snapshots id = some (target, snapshot)

/-- The three answers of a group commit that got as far as its members. -/
inductive GroupOutcome (ledger : Ledger) (ids : List Nat) (target : Nat) (store : ValueStore) :
    World → ValueStatus → Prop
  | conflicting
      (hconflict : Snapshot.GroupConflicts (ids.map ledger.snapshotOf) store.findEntry) :
      GroupOutcome ledger ids target store ledger.world .econflict
  | full (hquiet : ¬ Snapshot.GroupConflicts (ids.map ledger.snapshotOf) store.findEntry)
      (hfull : ¬ FitsFinally store (Snapshot.groupNet (ids.map ledger.snapshotOf))) :
      GroupOutcome ledger ids target store ledger.world .enospc
  | committed (hquiet : ¬ Snapshot.GroupConflicts (ids.map ledger.snapshotOf) store.findEntry)
      (hfits : FitsFinally store (Snapshot.groupNet (ids.map ledger.snapshotOf)))
      (next : ValueStore) (hlimits : next.limits = store.limits)
      (hlookup : next.findEntry =
        overlay store.findEntry (Snapshot.groupNet (ids.map ledger.snapshotOf))) :
      GroupOutcome ledger ids target store
        (ids.foldl World.txnAbort (ledger.world.withStore target next)) .ok

theorem foldl_txnAbort (ids : List Nat) :
    ∀ world : World, (ids.foldl World.txnAbort world).stores = world.stores ∧
      ∀ id, (ids.foldl World.txnAbort world).txns id =
        if id ∈ ids then none else world.txns id := by
  induction ids with
  | nil => exact fun world => ⟨rfl, fun id => by simp⟩
  | cons head rest ih =>
      intro world
      obtain ⟨hstores, htxns⟩ := ih (world.txnAbort head)
      refine ⟨hstores, fun id => ?_⟩
      rw [List.foldl_cons, htxns]
      by_cases hrest : id ∈ rest
      · simp [hrest]
      · by_cases hhead : id = head <;> simp [hrest, hhead, World.txnAbort, World.withTxn]

/-- The transactions read for a group implement the recorded snapshots. -/
theorem Sound.exists_members (hsound : ledger.Sound) {target : Nat} {store : ValueStore}
    (hstore : ledger.world.stores target = some store) :
    ∀ (ids : List Nat) (txns : List ValueTxn), ids.map ledger.world.txns = txns.map some →
      (∀ txn ∈ txns, txn.target = target) →
      (∃ members : Members, members.txns = txns ∧
        members.snapshots = ids.map ledger.snapshotOf ∧ members.Represent store.limits) ∧
      ∀ id ∈ ids, ∃ snapshot, ledger.snapshots id = some (target, snapshot) := by
  intro ids
  induction ids with
  | nil =>
      intro txns hmap _
      have hnil : txns = [] := by simpa using hmap.symm
      exact ⟨⟨[], by simp [Members.txns, hnil], rfl, by simp [Members.Represent]⟩, by simp⟩
  | cons id rest ih =>
      intro txns hmap htargets
      cases txns with
      | nil => simp at hmap
      | cons txn txns =>
          simp only [List.map_cons, List.cons.injEq] at hmap
          obtain ⟨hlive, hrest⟩ := hmap
          obtain ⟨⟨members, hmembers, hsnapshots, hrepresent⟩, hlater⟩ :=
            ih txns hrest fun other hother => htargets other (by simp [hother])
          obtain ⟨snapshot, found, hsnapshot, hrepresents, hfound, hlimits⟩ :=
            hsound.live id txn hlive
          have htarget : txn.target = target := htargets txn (by simp)
          rw [htarget, hstore, Option.some.injEq] at hfound
          subst hfound
          refine ⟨⟨(txn, snapshot) :: members, ?_, ?_, ?_⟩, ?_⟩
          · simpa [Members.txns] using hmembers
          · simpa [Members.snapshots, snapshotOf, hsnapshot] using hsnapshots
          · intro member hmember
            rcases List.mem_cons.mp hmember with rfl | htail
            · exact ⟨hrepresents, hlimits⟩
            · exact hrepresent member htail
          · intro other hother
            rcases List.mem_cons.mp hother with rfl | htail
            · exact ⟨snapshot, htarget ▸ hsnapshot⟩
            · exact hlater other htail

/-- The members have been read: the commit runs out of memory without effect, or
has one of the three outcomes. -/
theorem commitMembers_cases {ids : List Nat} (target : Nat) {store : ValueStore}
    {members : Members} (hsnapshots : members.snapshots = ids.map ledger.snapshotOf)
    (hrepresent : members.Represent store.limits) (schedule : AllocSchedule) :
    ∃ rest, ((store.clone schedule).1 = .error .enomem ∧
        ledger.world.commitMembers ids target store members.txns schedule =
          (ledger.world, .enomem, rest)) ∨
      ∃ world status, ledger.world.commitMembers ids target store members.txns schedule =
        (world, status, rest) ∧ GroupOutcome ledger ids target store world status := by
  have hconflict := hrepresent.conflict_iff store
  have hpasses := groupPasses_cases hrepresent
  rw [hsnapshots] at hconflict hpasses
  by_cases hdiffers : groupConflict store members.txns = true
  · refine ⟨schedule, .inr ⟨_, _, ?_, .conflicting (hconflict.mp hdiffers)⟩⟩
    rw [World.commitMembers, if_pos hdiffers]
  have hquiet := mt hconflict.mpr hdiffers
  obtain ⟨hremovals, hwrites⟩ := hpasses hquiet
  refine ⟨(store.clone schedule).2, ?_⟩
  rw [World.commitMembers, if_neg hdiffers]
  rcases hclone : store.clone schedule with ⟨cloned, rest⟩
  rcases store.clone_cases schedule with hok | hfailed
  · have hcloned : cloned = .ok store := by rw [← hok, hclone]
    subst hcloned
    simp only [hremovals, ne_eq, not_true_eq_false, if_false]
    rcases hwrites with ⟨hstatus, hfull⟩ | ⟨next, hresult, hfits, hlimits, hlookup⟩
    · refine .inr ⟨_, _, ?_, .full hquiet hfull⟩
      simp [hstatus]
    · refine .inr ⟨_, _, ?_, .committed hquiet hfits next hlimits hlookup⟩
      simp [hresult]
  · have hcloned : cloned = .error .enomem := by rw [← hfailed, hclone]
    subst hcloned
    exact .inl ⟨rfl, rfl⟩

/-- A group commit, whatever its allocations do: refused without effect for its
arguments or for want of memory, or one of the three outcomes for its members. -/
theorem Sound.txnCommitGroup_cases (hsound : ledger.Sound) (ids : List Nat)
    (schedule : AllocSchedule) :
    ((ledger.world.txnCommitGroup ids schedule).1 = ledger.world ∧
      ((ledger.world.txnCommitGroup ids schedule).2.1 = .einval ∨
        (ledger.world.txnCommitGroup ids schedule).2.1 = .enomem)) ∨
    ∃ target store, ledger.GroupOn ids target ∧ ledger.world.stores target = some store ∧
      GroupOutcome ledger ids target store (ledger.world.txnCommitGroup ids schedule).1
        (ledger.world.txnCommitGroup ids schedule).2.1 := by
  rw [World.txnCommitGroup]
  split
  · exact .inl ⟨rfl, .inl rfl⟩
  rename_i hcount
  split
  · exact .inl ⟨rfl, .inr rfl⟩
  rename_i rest _
  split
  · rename_i txns target hgather
    obtain ⟨hmap, hnodup, _, htargets, _⟩ := World.gather_spec hgather
    cases hstore : ledger.world.stores target with
    | none => exact .inl ⟨rfl, .inl rfl⟩
    | some store =>
        have hnonempty : ids ≠ [] := by
          rintro rfl
          simp at hcount
        obtain ⟨⟨members, rfl, hsnapshots, hrepresent⟩, hlive⟩ :=
          hsound.exists_members hstore ids txns hmap fun txn htxn => by
            simpa using (htargets txn htxn).symm
        obtain ⟨last, ⟨_, hmemory⟩ | ⟨world, status, hresult, houtcome⟩⟩ :=
          commitMembers_cases target hsnapshots hrepresent rest
        · exact .inl (by simp [hmemory])
        · refine .inr ⟨target, store, ⟨hnonempty, hnodup, hlive⟩, hstore, ?_⟩
          simpa [hresult] using houtcome
  · exact .inl ⟨rfl, .inl rfl⟩

/-- With memory to spare a group of distinct live transactions has one of the
three outcomes. -/
theorem Sound.commitGroup_outcome (hsound : ledger.Sound) {ids : List Nat} {target : Nat}
    (hgroup : ledger.GroupOn ids target) (hcount : ids.length ≤ sizeMax / pointerBytes) :
    ∃ store, ledger.world.stores target = some store ∧
      GroupOutcome ledger ids target store (ledger.world.step (.commitGroup ids)).1
        (ledger.world.step (.commitGroup ids)).2 := by
  have hlive : ∀ id ∈ ids, ∃ txn, ledger.world.txns id = some txn ∧ txn.target = target := by
    intro id hid
    obtain ⟨snapshot, hsnapshot⟩ := hgroup.live id hid
    cases htxn : ledger.world.txns id with
    | none =>
        rw [hsound.recorded id htxn] at hsnapshot
        contradiction
    | some txn =>
        obtain ⟨_, _, hrecorded, _⟩ := hsound.live id txn htxn
        rw [hsnapshot, Option.some.injEq, Prod.mk.injEq] at hrecorded
        exact ⟨txn, rfl, hrecorded.1.symm⟩
  obtain ⟨store, hstore⟩ : ∃ store, ledger.world.stores target = some store := by
    obtain ⟨id, hid⟩ := List.exists_mem_of_ne_nil ids hgroup.nonempty
    obtain ⟨txn, htxn, rfl⟩ := hlive id hid
    obtain ⟨_, store, _, _, hstore, _⟩ := hsound.live id txn htxn
    exact ⟨store, hstore⟩
  obtain ⟨txns, last, hgather, hlast⟩ := World.gather_of_live ledger.world
    (by rw [hstore]; rfl) ids [] none hlive hgroup.nodup (by simp) (.inl rfl)
  obtain rfl := hlast hgroup.nonempty
  obtain ⟨hmap, _, _, htargets, _⟩ := World.gather_spec hgather
  obtain ⟨⟨members, rfl, hsnapshots, hrepresent⟩, _⟩ :=
    hsound.exists_members hstore ids txns hmap fun txn htxn => by
      simpa using (htargets txn htxn).symm
  have hchecks : (decide (ids.length = 0) || decide (ids.length > sizeMax / pointerBytes)) =
      false := by
    have hpos := List.length_pos_iff.mpr hgroup.nonempty
    simp only [Bool.or_eq_false_iff, decide_eq_false_iff_not]
    omega
  refine ⟨store, hstore, ?_⟩
  have hstep : ledger.world.txnCommitGroup ids [] =
      ledger.world.commitMembers ids target store members.txns [] := by
    rw [World.txnCommitGroup, hchecks]
    simp [hgather, hstore]
  obtain ⟨rest, ⟨hmemory, _⟩ | ⟨world, status, hresult, houtcome⟩⟩ :=
    commitMembers_cases target hsnapshots hrepresent []
  · simp at hmemory
  · simpa [World.step, hstep, hresult] using houtcome

/-! ## Every call keeps the ledger sound -/

@[simp]
theorem withTxn_self {world : World} {id : Nat} {txn : ValueTxn}
    (htxn : world.txns id = some txn) : world.withTxn id (some txn) = world := by
  rw [World.withTxn, ← htxn, Function.update_eq_self]

/-- An operation on a store that keeps the limits. -/
theorem Sound.onStore (hsound : ledger.Sound) (id : Nat)
    {operation : ValueStore → ValueStore × ValueStatus}
    (hlimits : ∀ store, (operation store).1.limits = store.limits) :
    Sound ⟨(ledger.world.onStore id operation).1, ledger.snapshots⟩ := by
  rw [World.onStore]
  cases hstore : ledger.world.stores id with
  | none => exact hsound
  | some store =>
      refine hsound.stores (StoresKept.withStore fun found hfound => ?_) rfl
      rw [hstore, Option.some.injEq] at hfound
      exact hfound ▸ hlimits store

/-- A transactional set is recorded when it succeeds. -/
theorem Sound.txnSet (hsound : ledger.Sound) (id : Nat) (key value : Option CString) :
    (ledger.step (.txnSet id key value)).1.Sound := by
  cases htxn : ledger.world.txns id with
  | none => simpa [step, World.step, World.onTxn, htxn] using hsound
  | some txn =>
      obtain ⟨snapshot, store, hsnapshot, hrepresents, hstore, hlimits⟩ := hsound.live id txn htxn
      have hworld : ledger.world.step (.txnSet id key value) =
          (ledger.world.withTxn id (some (txn.set key value).1), (txn.set key value).2) := by
        simp [World.step, World.onTxn, htxn]
      rcases hrepresents.set key value with
        ⟨hrefused, hsame⟩ | ⟨newKey, newValue, rfl, rfl, hok, htarget, hbaseline, hnext⟩
      · simpa [step, hworld, hrefused, hsame, htxn] using hsound
      · have hnew := hsound.withTxn id hnext (htarget ▸ hstore) (hbaseline ▸ hlimits)
        simpa [step, hworld, hok, observe, amend, hsnapshot, htarget] using hnew

/-- A transactional erase is recorded when it succeeds. -/
theorem Sound.txnErase (hsound : ledger.Sound) (id : Nat) (key : Option CString) :
    (ledger.step (.txnErase id key)).1.Sound := by
  cases htxn : ledger.world.txns id with
  | none => simpa [step, World.step, World.onTxn, htxn] using hsound
  | some txn =>
      obtain ⟨snapshot, store, hsnapshot, hrepresents, hstore, hlimits⟩ := hsound.live id txn htxn
      have hworld : ledger.world.step (.txnErase id key) =
          (ledger.world.withTxn id (some (txn.erase key).1), (txn.erase key).2) := by
        simp [World.step, World.onTxn, htxn]
      rcases hrepresents.erase key with
        ⟨hrefused, hsame⟩ | ⟨oldKey, rfl, hok, htarget, hbaseline, hnext⟩
      · simpa [step, hworld, hrefused, hsame, htxn] using hsound
      · have hnew := hsound.withTxn id hnext (htarget ▸ hstore) (hbaseline ▸ hlimits)
        simpa [step, hworld, hok, observe, amend, hsnapshot, htarget] using hnew

/-- A successful begin records an opened snapshot. -/
theorem Sound.begin (hsound : ledger.Sound) (id target : Nat) :
    (ledger.step (.begin id target)).1.Sound := by
  cases htxn : ledger.world.txns id with
  | some txn => simpa [step, World.step, World.txnBegin, htxn] using hsound
  | none =>
      cases hstore : ledger.world.stores target with
      | none => simpa [step, World.step, World.txnBegin, htxn, hstore] using hsound
      | some base =>
          have hnew := hsound.withTxn id (Represents.opened target base) hstore rfl
          simpa [step, World.step, World.txnBegin, htxn, hstore, observe, World.content] using hnew

/-- A commit replaces the target and drops its transaction, or does nothing. -/
theorem Sound.commit (hsound : ledger.Sound) (id : Nat) :
    (ledger.step (.commit id)).1.Sound := by
  cases htxn : ledger.world.txns id with
  | none => simpa [step, World.step, World.txnCommit, htxn] using hsound
  | some txn =>
      obtain ⟨snapshot, store, hsnapshot, hrepresents, hstore, hlimits⟩ := hsound.live id txn htxn
      rcases txnCommit_cases htxn hstore hlimits hrepresents with
        ⟨_, hcommit⟩ | ⟨_, _, hcommit⟩ | ⟨_, _, next, hnext, _, hcommit⟩
      · simpa [step, World.step, hcommit] using hsound
      · simpa [step, World.step, hcommit] using hsound
      · have hkept : Sound ⟨ledger.world.withStore txn.target next, ledger.snapshots⟩ := by
          refine hsound.stores (StoresKept.withStore fun found hfound => ?_) rfl
          rw [hstore, Option.some.injEq] at hfound
          exact hfound ▸ hnext
        simp only [step, World.step, hcommit, if_true, observe]
        refine hkept.dropped [id] rfl (fun other => ?_) fun other => ?_
        · by_cases hother : other = id <;> simp [hother, World.txnAbort, World.withTxn]
        · by_cases hother : other = id <;> simp [hother]

theorem Sound.abort (hsound : ledger.Sound) (id : Nat) :
    (ledger.step (.abort id)).1.Sound := by
  simp only [step, World.step, if_true, observe]
  refine hsound.dropped [id] rfl (fun other => ?_) fun other => ?_
  · by_cases hother : other = id <;> simp [hother, World.txnAbort, World.withTxn]
  · by_cases hother : other = id <;> simp [hother]

/-- A group commit replaces the target and drops its members, or does nothing. -/
theorem Sound.outcome (hsound : ledger.Sound) {ids : List Nat} {target : Nat} {store : ValueStore}
    (hstore : ledger.world.stores target = some store) {world : World} {status : ValueStatus}
    (houtcome : GroupOutcome ledger ids target store world status) :
    Sound ⟨world, if status = .ok then ledger.observe (.commitGroup ids)
      else ledger.snapshots⟩ := by
  cases houtcome with
  | conflicting => simpa using hsound
  | full => simpa using hsound
  | committed _ _ next hlimits _ =>
      have hkept : Sound ⟨ledger.world.withStore target next, ledger.snapshots⟩ := by
        refine hsound.stores (StoresKept.withStore fun found hfound => ?_) rfl
        rw [hstore, Option.some.injEq] at hfound
        exact hfound ▸ hlimits
      obtain ⟨hstores, htxns⟩ := foldl_txnAbort ids (ledger.world.withStore target next)
      exact hkept.dropped ids hstores htxns fun _ => rfl

theorem Sound.commitGroup (hsound : ledger.Sound) (ids : List Nat) :
    (ledger.step (.commitGroup ids)).1.Sound := by
  rcases hsound.txnCommitGroup_cases ids [] with
    ⟨hsame, hstatus⟩ | ⟨target, store, _, hstore, houtcome⟩
  · have hrefused : (ledger.world.txnCommitGroup ids []).2.1 ≠ .ok := by
      rcases hstatus with hstatus | hstatus <;> simp [hstatus]
    simpa [step, World.step, hsame, hrefused] using hsound
  · exact hsound.outcome hstore houtcome

/-- A new store is added behind a handle that had none. -/
theorem Sound.init (hsound : ledger.Sound) (id : Nat) (limits : StoreLimits) :
    (ledger.step (.init id limits)).1.Sound := by
  cases hstore : ledger.world.stores id with
  | some store => simpa [step, World.step, World.storeInit, hstore] using hsound
  | none =>
      by_cases hadmitted : limits.admitted = true
      · have hkept : StoresKept ledger.world
            (ledger.world.withStore id (.blank limits hadmitted)) :=
          StoresKept.withStore fun found hfound => by simp [hstore] at hfound
        simpa [step, World.step, World.storeInit, hstore, ValueStore.init, hadmitted, observe] using
          hsound.stores hkept rfl
      · simpa [step, World.step, World.storeInit, hstore, ValueStore.init, hadmitted] using hsound

/-- Every call keeps the ledger sound. -/
theorem Sound.step (hsound : ledger.Sound) (request : ValueRequest) :
    (ledger.step request).1.Sound := by
  have hplain (request : ValueRequest) (hobserve : ledger.observe request = ledger.snapshots)
      (hworld : Sound ⟨(ledger.world.step request).1, ledger.snapshots⟩) :
      (ledger.step request).1.Sound := by
    simpa [Ledger.step, hobserve] using hworld
  cases request with
  | init id limits => exact hsound.init id limits
  | set id key value =>
      exact hplain _ rfl (hsound.onStore id fun store => (store.set_spec key value).limits_eq)
  | setMany id writes =>
      exact hplain _ rfl (hsound.onStore id fun store => (store.setMany_frame writes).1)
  | erase id key =>
      exact hplain _ rfl (hsound.onStore id fun store => (store.erase_spec key).limits_eq)
  | begin id target => exact hsound.begin id target
  | txnSet id key value => exact hsound.txnSet id key value
  | txnErase id key => exact hsound.txnErase id key
  | commit id => exact hsound.commit id
  | commitGroup ids => exact hsound.commitGroup ids
  | abort id => exact hsound.abort id

/-- The ledger of every run is sound. -/
theorem sound_of_run {history : List (ValueRequest × ValueStatus)}
    (hrun : Run Ledger.step empty history ledger) : ledger.Sound :=
  hrun.invariant (fun _ ledger => ledger.Sound) empty_sound
    fun _ _ request _ hsound => hsound.step request

end Ledger

end Praktor.Values
