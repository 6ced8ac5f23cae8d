/-
# Optimistic transactions on value stores

`praktor_c11_value_txn_begin` clones its target twice, into a baseline that is
never changed and a working copy that takes all writes, and keeps a log of the
keys it touches.  `commit` compares target and baseline on the logged keys,
replays the log into a staged clone of the target and swaps the clone in.
`commit_group` does the same for several transactions at once, but replays all
removals before it writes anything.

Handles are numbers: a world maps store handles and transaction handles to their
implementations, `none` being a handle whose implementation pointer is null.  The
same number twice in a group is a handle that was copied.
-/

import Mathlib.Logic.Function.Basic
import Praktor.Values.Store

namespace Praktor.Values

open Praktor.Data Praktor.Math

/-- `praktor_c11_value_txn_op`. -/
structure TxnOp where
  key : CString
  baselineValue : Option CString
  deriving DecidableEq

/-- `praktor_c11_value_txn_impl`. -/
structure ValueTxn where
  target : Nat
  baseline : ValueStore
  working : ValueStore
  opCapacity : Nat
  ops : List TxnOp

/-- `same_key`: absent on both sides, or present with equal bytes. -/
def sameKey (first second : ValueStore) (key : CString) : Bool :=
  match first.findEntry key, second.findEntry key with
  | some value, some other => value.length = other.length && value = other
  | none, none => true
  | _, _ => false

theorem sameKey_iff {first second : ValueStore} {key : CString} :
    sameKey first second key = true ↔ first.findEntry key = second.findEntry key := by
  rw [sameKey]
  cases hfirst : first.findEntry key <;> cases hsecond : second.findEntry key <;> simp
  rintro rfl
  rfl

namespace ValueTxn

/-- The logged keys, in order of their first touch. -/
def keys (txn : ValueTxn) : List CString := txn.ops.map TxnOp.key

/-- `txn_record`. -/
def record (txn : ValueTxn) (key : CString) : ValueTxn × ValueStatus :=
  if key ∈ txn.keys then (txn, .ok)
  else if txn.ops.length ≥ txn.opCapacity then (txn, .enospc)
  else ({ txn with ops := txn.ops ++ [⟨key, txn.baseline.findEntry key⟩] }, .ok)

/-- `praktor_c11_value_txn_set`. -/
def set (txn : ValueTxn) (key value : Option CString) : ValueTxn × ValueStatus :=
  match key, value with
  | some key, some value =>
      let limits := txn.working.limits
      if boundedLength key limits.maxKeyBytes = 0 ∨
          boundedLength key limits.maxKeyBytes = sizeMax then (txn, .einval)
      else if boundedLength key limits.maxKeyBytes > limits.maxKeyBytes ∨
          boundedLength value limits.maxValueBytes > limits.maxValueBytes then (txn, .enobufs)
      else if txn.working.findEntry key = none ∧ txn.working.size ≥ limits.capacity then
        (txn, .enospc)
      else
        let (recorded, status) := txn.record key
        if status ≠ .ok then (recorded, status)
        else
          let (working, status) := recorded.working.set (some key) (some value)
          ({ recorded with working := working }, status)
  | _, _ => (txn, .einval)

/-- `praktor_c11_value_txn_erase`. -/
def erase (txn : ValueTxn) (key : Option CString) : ValueTxn × ValueStatus :=
  match key with
  | none => (txn, .einval)
  | some key =>
      if txn.working.admitsKey key then
        if txn.working.findEntry key = none then (txn, .enotfound)
        else
          let (recorded, status) := txn.record key
          if status ≠ .ok then (recorded, status)
          else
            let (working, status) := recorded.working.erase (some key)
            ({ recorded with working := working }, status)
      else (txn, .einval)

end ValueTxn

/-! ## Replaying a log into a staged clone -/

/-- Remove a key if it is there. -/
def removePresent (staged : ValueStore) (key : CString) : ValueStore × ValueStatus :=
  match staged.contains (some key) with
  | .error status => (staged, status)
  | .ok present => if present then staged.erase (some key) else (staged, .ok)

/-- The replay loop of `praktor_c11_value_txn_commit`, in log order. -/
def replayOps (working : ValueStore) : List TxnOp → ValueStore → ValueStore × ValueStatus
  | [], staged => (staged, .ok)
  | op :: rest, staged =>
      let (staged, status) :=
        match working.findEntry op.key with
        | some value => staged.set (some op.key) (some value)
        | none => removePresent staged op.key
      if status ≠ .ok then (staged, status) else replayOps working rest staged

/-- The first pass of `commit_group`, over the operations of all members. -/
def removalPass : List (ValueStore × TxnOp) → ValueStore → ValueStore × ValueStatus
  | [], staged => (staged, .ok)
  | (working, op) :: rest, staged =>
      if working.findEntry op.key = none then
        let (staged, status) := removePresent staged op.key
        if status ≠ .ok then (staged, status) else removalPass rest staged
      else removalPass rest staged

/-- The second pass of `commit_group`. -/
def writePass : List (ValueStore × TxnOp) → ValueStore → ValueStore × ValueStatus
  | [], staged => (staged, .ok)
  | (working, op) :: rest, staged =>
      match working.findEntry op.key with
      | none => writePass rest staged
      | some value =>
          let (staged, status) := staged.set (some op.key) (some value)
          if status ≠ .ok then (staged, status) else writePass rest staged

/-- Every operation of the members with the working copy it belongs to, in the
order of the nested loops. -/
def groupOps (members : List ValueTxn) : List (ValueStore × TxnOp) :=
  members.flatMap fun txn => txn.ops.map fun op => (txn.working, op)

/-- The conflict loops of `commit_group`: a logged key of a member differs from
its baseline, or is logged by a later member too. -/
def groupConflict (target : ValueStore) : List ValueTxn → Bool
  | [] => false
  | txn :: rest =>
      (txn.ops.any fun op => !sameKey target txn.baseline op.key ||
        rest.any fun other => other.ops.any fun later => later.key = op.key) ||
      groupConflict target rest

/-! ## Worlds -/

/-- The implementations behind the handles. -/
@[ext]
structure World where
  stores : Nat → Option ValueStore
  txns : Nat → Option ValueTxn

/-- `sizeof(praktor_c11_value_txn_impl *)` on a 64-bit target. -/
def pointerBytes : Nat := 8

namespace World

/-- No handle has been initialised. -/
def empty : World := ⟨fun _ => none, fun _ => none⟩

/-- Replace the implementation behind a store handle. -/
def withStore (world : World) (id : Nat) (store : ValueStore) : World :=
  { world with stores := Function.update world.stores id (some store) }

/-- Replace the implementation behind a transaction handle. -/
def withTxn (world : World) (id : Nat) (txn : Option ValueTxn) : World :=
  { world with txns := Function.update world.txns id txn }

/-- `praktor_c11_value_store_init`. -/
def storeInit (world : World) (id : Nat) (limits : StoreLimits) (schedule : AllocSchedule) :
    World × ValueStatus × AllocSchedule :=
  match world.stores id with
  | some _ => (world, .einval, schedule)
  | none =>
      match ValueStore.init limits schedule with
      | (.error status, schedule) => (world, status, schedule)
      | (.ok store, schedule) => (world.withStore id store, .ok, schedule)

/-- An operation on the store behind a handle. -/
def onStore (world : World) (id : Nat) (operation : ValueStore → ValueStore × ValueStatus) :
    World × ValueStatus :=
  match world.stores id with
  | none => (world, .einval)
  | some store =>
      let (next, status) := operation store
      (world.withStore id next, status)

/-- An operation on the transaction behind a handle. -/
def onTxn (world : World) (id : Nat) (operation : ValueTxn → ValueTxn × ValueStatus) :
    World × ValueStatus :=
  match world.txns id with
  | none => (world, .einval)
  | some txn =>
      let (next, status) := operation txn
      (world.withTxn id (some next), status)

/-- `praktor_c11_value_txn_begin`.  The three log arrays are requested before any
of them is checked. -/
def txnBegin (world : World) (id target : Nat) (schedule : AllocSchedule) :
    World × ValueStatus × AllocSchedule :=
  match world.txns id, world.stores target with
  | none, some base =>
      let (impl, schedule) := schedule.alloc
      if impl.isNone then (world, .enomem, schedule)
      else
        let (ops, schedule) := schedule.alloc
        let (opKeys, schedule) := schedule.alloc
        let (opValues, schedule) := schedule.alloc
        if ops.isNone || opKeys.isNone || opValues.isNone then (world, .enomem, schedule)
        else
          match base.clone schedule with
          | (.error status, schedule) => (world, status, schedule)
          | (.ok baseline, schedule) =>
              match base.clone schedule with
              | (.error status, schedule) => (world, status, schedule)
              | (.ok working, schedule) =>
                  (world.withTxn id (some ⟨target, baseline, working, base.limits.capacity, []⟩),
                    .ok, schedule)
  | _, _ => (world, .einval, schedule)

/-- `praktor_c11_value_txn_abort`. -/
def txnAbort (world : World) (id : Nat) : World := world.withTxn id none

/-- `praktor_c11_value_txn_commit`. -/
def txnCommit (world : World) (id : Nat) (schedule : AllocSchedule) :
    World × ValueStatus × AllocSchedule :=
  match world.txns id with
  | none => (world, .einval, schedule)
  | some txn =>
      match world.stores txn.target with
      | none => (world, .einval, schedule)
      | some target =>
          if txn.ops.any fun op => !sameKey target txn.baseline op.key then
            (world, .econflict, schedule)
          else
            match target.clone schedule with
            | (.error status, schedule) => (world, status, schedule)
            | (.ok staged, schedule) =>
                let (staged, status) := replayOps txn.working txn.ops staged
                if status ≠ .ok then (world, status, schedule)
                else ((world.withStore txn.target staged).txnAbort id, .ok, schedule)

/-- The first loop of `commit_group`: the members and their common target.  The
handles already read are `seen`. -/
def gather (world : World) : List Nat → List Nat → Option Nat →
    Option (List ValueTxn × Option Nat)
  | [], _, target => some ([], target)
  | id :: rest, seen, target =>
      match world.txns id with
      | none => none
      | some txn =>
          if (world.stores txn.target).isNone || (target ≠ none && target ≠ some txn.target) ||
              id ∈ seen then none
          else
            (world.gather rest (id :: seen) (some txn.target)).map fun gathered =>
              (txn :: gathered.1, gathered.2)

/-- `praktor_c11_value_txn_commit_group` once its members have been read. -/
def commitMembers (world : World) (ids : List Nat) (target : Nat) (store : ValueStore)
    (members : List ValueTxn) (schedule : AllocSchedule) : World × ValueStatus × AllocSchedule :=
  if groupConflict store members then (world, .econflict, schedule)
  else
    match store.clone schedule with
    | (.error status, schedule) => (world, status, schedule)
    | (.ok staged, schedule) =>
        let (staged, status) := removalPass (groupOps members) staged
        if status ≠ .ok then (world, status, schedule)
        else
          let (staged, status) := writePass (groupOps members) staged
          if status ≠ .ok then (world, status, schedule)
          else (ids.foldl txnAbort (world.withStore target staged), .ok, schedule)

/-- `praktor_c11_value_txn_commit_group`. -/
def txnCommitGroup (world : World) (ids : List Nat) (schedule : AllocSchedule) :
    World × ValueStatus × AllocSchedule :=
  if ids.length = 0 || ids.length > sizeMax / pointerBytes then (world, .einval, schedule)
  else
    match schedule.alloc with
    | (none, schedule) => (world, .enomem, schedule)
    | (some _, schedule) =>
        match world.gather ids [] none with
        | some (members, some target) =>
            match world.stores target with
            | none => (world, .einval, schedule)
            | some store => world.commitMembers ids target store members schedule
        | _ => (world, .einval, schedule)

end World

/-- One call of the value layer. -/
inductive ValueRequest
  | init (store : Nat) (limits : StoreLimits)
  | set (store : Nat) (key value : Option CString)
  | setMany (store : Nat) (writes : List (Option CString × Option CString))
  | erase (store : Nat) (key : Option CString)
  | begin (txn store : Nat)
  | txnSet (txn : Nat) (key value : Option CString)
  | txnErase (txn : Nat) (key : Option CString)
  | commit (txn : Nat)
  | commitGroup (txns : List Nat)
  | abort (txn : Nat)

/-- Serve one call while every allocation succeeds. -/
def World.step (world : World) : ValueRequest → World × ValueStatus
  | .init store limits =>
      let (next, status, _) := world.storeInit store limits []
      (next, status)
  | .set store key value => world.onStore store fun current => current.set key value
  | .setMany store writes => world.onStore store fun current => current.setMany writes
  | .erase store key => world.onStore store fun current => current.erase key
  | .begin txn store =>
      let (next, status, _) := world.txnBegin txn store []
      (next, status)
  | .txnSet txn key value => world.onTxn txn fun current => current.set key value
  | .txnErase txn key => world.onTxn txn fun current => current.erase key
  | .commit txn =>
      let (next, status, _) := world.txnCommit txn []
      (next, status)
  | .commitGroup txns =>
      let (next, status, _) := world.txnCommitGroup txns []
      (next, status)
  | .abort txn => (world.txnAbort txn, .ok)

end Praktor.Values
