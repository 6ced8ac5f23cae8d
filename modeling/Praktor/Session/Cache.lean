/-
# The cached state of a session

A session keeps texts between ticks in one pool: what a pipeline took over, what an entry
was, what a process was started with.  Every node has nine slots.  A text is appended to
the pool; when it is dropped, everything behind it moves to the front.

The capacity of the pool is the length of its data.  A request for memory either fails or
gives bytes that are not known.
-/

import Praktor.Data.Bytes
import Praktor.Math.Packing
import Praktor.Math.Run

namespace Praktor.Session

open Praktor.Data Praktor.Math

/-- The slots of a node: `SESSION_PIPE_DATA` to `SESSION_SHELL_EXIT`. -/
inductive SlotKind
  | pipeData
  | pipeKey
  | entryValue
  | shellCmd
  | shellInput
  | shellCwd
  | shellOut
  | shellErr
  | shellExit
  deriving DecidableEq, Repr

/-- `session_slot`. -/
structure CacheSlot where
  offset : Nat
  size : Nat
  present : Bool
  deriving DecidableEq, Repr

/-- A slot of a session with `count` nodes. -/
abbrev SlotPlace (count : Nat) := Fin count × SlotKind

/-- `pool`, `used` and `slots` of `session_impl`. -/
structure CachePool (count : Nat) where
  data : Bytes
  used : Nat
  slots : SlotPlace count → CacheSlot

/-- The outcome of `realloc`: the bytes that are new, or nothing. -/
abbrev Fresh := Option (Nat → UInt8)

/-- The doubling loop of `session_buffer_reserve`.  The loop begins at a positive capacity. -/
def doubled (bytes limit capacity : Nat) : Nat :=
  if capacity ≤ bytes ∧ capacity ≤ (limit + 1) / 2 ∧ 0 < capacity then
    doubled bytes limit (capacity * 2)
  else capacity
termination_by limit + 1 - capacity

/-- `session_buffer_reserve`. -/
def sessionBufferReserve (data : Bytes) (bytes limit : Nat) (fresh : Fresh) : Except Salts Bytes :=
  if bytes > limit ∨ limit = sizeMax then .error .enobufs
  else if bytes + 1 ≤ data.length then .ok data
  else
    let grown := doubled bytes limit (if data.length ≠ 0 then data.length else 256)
    let capacity := if grown ≤ bytes ∨ grown > limit + 1 then bytes + 1 else grown
    match fresh with
    | none => .error .enomem
    | some fresh => .ok (data ++ (List.range' data.length (capacity - data.length)).map fresh)

namespace CachePool

variable {count : Nat}

/-- The pool of a new session. -/
def empty (count : Nat) : CachePool count := ⟨[], 0, fun _ => ⟨0, 0, false⟩⟩

/-- `session_cached`. -/
def sessionCached (pool : CachePool count) (place : SlotPlace count) : Bytes :=
  if (pool.slots place).present then
    Arena.read pool.data (pool.slots place).offset (pool.slots place).size
  else []

/-- `session_uncache`. -/
def sessionUncache (pool : CachePool count) (place : SlotPlace count) : CachePool count :=
  let slot := pool.slots place
  if slot.present then
    let removed := slot.size + 1
    let stop := slot.offset + removed
    { data := Arena.write pool.data slot.offset (Arena.read pool.data stop (pool.used - stop))
      used := pool.used - removed
      slots := Function.update
        (fun other =>
          if (pool.slots other).present && (pool.slots other).offset ≥ stop then
            { pool.slots other with offset := (pool.slots other).offset - removed }
          else pool.slots other)
        place ⟨0, 0, false⟩ }
  else pool

/-- `retained` of `session_cache`: what is used without the slot. -/
def retained (pool : CachePool count) (place : SlotPlace count) : Nat :=
  pool.used - if (pool.slots place).present then (pool.slots place).size + 1 else 0

/-- `session_cache` of a text that is not in the pool. -/
def sessionCache (limit : Nat) (pool : CachePool count) (place : SlotPlace count) (value : Bytes)
    (fresh : Fresh) : Salts × CachePool count :=
  if value.length ≥ limit ∨ pool.retained place > limit - value.length - 1 then (.enobufs, pool)
  else
    match sessionBufferReserve pool.data (pool.retained place + value.length + 1) limit fresh with
    | .error code => (code, pool)
    | .ok data =>
        let pool := ({ pool with data } : CachePool count).sessionUncache place
        (.ok,
          { data := Arena.write (Arena.write pool.data pool.used value) (pool.used + value.length) [0]
            used := pool.used + value.length + 1
            slots := Function.update pool.slots place ⟨pool.used, value.length, true⟩ })

end CachePool

/-! ## Growing -/

theorem le_doubled (bytes limit capacity : Nat) : capacity ≤ doubled bytes limit capacity := by
  induction hrest : limit + 1 - capacity using Nat.strongRecOn generalizing capacity with
  | ind rest ih =>
      rw [doubled]
      split
      · next hcontinue =>
          have hlater := ih _ (by omega) (capacity * 2) rfl
          omega
      · exact Nat.le_refl _

theorem sessionBufferReserve_error {data : Bytes} {bytes limit : Nat} {fresh : Fresh} {code : Salts}
    (hreserve : sessionBufferReserve data bytes limit fresh = .error code) : code ≠ .ok := by
  unfold sessionBufferReserve at hreserve
  split at hreserve
  · exact Except.error.inj hreserve ▸ nofun
  split at hreserve
  · cases hreserve
  cases fresh with
  | none => exact Except.error.inj hreserve ▸ nofun
  | some fresh => cases hreserve

/-- What a reservation gives: the bytes that were there, and room for one more than asked. -/
theorem sessionBufferReserve_room {data next : Bytes} {bytes limit : Nat} {fresh : Fresh}
    (hreserve : sessionBufferReserve data bytes limit fresh = .ok next) :
    data <+: next ∧ bytes + 1 ≤ next.length := by
  unfold sessionBufferReserve at hreserve
  split at hreserve
  · cases hreserve
  split at hreserve
  · next henough =>
      obtain rfl := Except.ok.inj hreserve
      exact ⟨List.prefix_refl _, henough⟩
  next hshort =>
  dsimp only at hreserve
  cases fresh with
  | none => cases hreserve
  | some fresh =>
      obtain rfl := Except.ok.inj hreserve
      refine ⟨⟨_, rfl⟩, ?_⟩
      rw [List.length_append, List.length_map, List.length_range']
      split_ifs <;> omega

/-- A reservation that is within the limit leaves the buffer within it. -/
theorem sessionBufferReserve_ok {data next : Bytes} {bytes limit : Nat} {fresh : Fresh}
    (hreserve : sessionBufferReserve data bytes limit fresh = .ok next)
    (hdata : data.length ≤ limit + 1) :
    data <+: next ∧ bytes + 1 ≤ next.length ∧ next.length ≤ limit + 1 := by
  obtain ⟨hfront, hroom⟩ := sessionBufferReserve_room hreserve
  refine ⟨hfront, hroom, ?_⟩
  unfold sessionBufferReserve at hreserve
  split at hreserve
  · cases hreserve
  next hlimit =>
  split at hreserve
  · rwa [← Except.ok.inj hreserve]
  dsimp only at hreserve
  cases fresh with
  | none => cases hreserve
  | some fresh =>
      obtain rfl := Except.ok.inj hreserve
      have hgrown := le_doubled bytes limit (if data.length ≠ 0 then data.length else 256)
      rw [List.length_append, List.length_map, List.length_range']
      split_ifs at hgrown ⊢ <;> omega

/-- A reservation within the limit succeeds when memory is there. -/
theorem sessionBufferReserve_exists {bytes limit : Nat} (hbytes : bytes ≤ limit)
    (hlimit : limit < sizeMax) (data : Bytes) (fresh : Nat → UInt8) :
    ∃ next, sessionBufferReserve data bytes limit (some fresh) = .ok next := by
  unfold sessionBufferReserve
  rw [if_neg (by omega)]
  split
  · exact ⟨data, rfl⟩
  · exact ⟨_, rfl⟩

end Praktor.Session
