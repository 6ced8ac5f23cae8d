/-
# The values of the native host

The native host gives a session the functions of its value store.  They keep the promises that the
session relies on: what the session reads is the map of the entries, and what it writes changes that
map at one key.  An empty text is not answered at once: its size is asked for with no buffer, which
is too small for any text.
-/

import Praktor.Native.Host
import Praktor.Session.ControlReads

namespace Praktor.Session

open Praktor.Data Praktor.Native Praktor.Values

variable {Regex : Type}

/-- `value_result`. -/
def valueResult : ValueStatus → ValueAnswer
  | .ok => .ok
  | .enotfound => .notFound
  | .enobufs => .bufferTooSmall
  | _ => .failed

/-- `get_value`.  A buffer of no bytes is a null pointer. -/
def getValue (host : NativeHost Regex) (key : CString) (capacity : Nat) : ValueReply :=
  let reply := host.values.get (some key) (if capacity = 0 then none else some capacity)
  ⟨valueResult reply.1, reply.2.1.getD 0,
    (reply.2.2.map fun value => value.bytes ++ [0]).getD []⟩

/-- `contains_value`. -/
def containsValue (host : NativeHost Regex) (key : CString) : Option Bool :=
  match host.values.contains (some key) with
  | .ok yes => some yes
  | .error _ => none

/-- `set_value`. -/
def setValue (host : NativeHost Regex) (key value : CString) : Option (NativeHost Regex) :=
  let outcome := host.values.set (some key) (some value)
  if valueResult outcome.2 = .ok then some { host with values := outcome.1 } else none

/-- The functions that `praktor_c11_native_host_bind` gives. -/
def nativeHostBind : ValueHooks (NativeHost Regex) where
  valueGet := getValue
  valueContains := containsValue
  valueSet := setValue
  setBytes := none

/-- The texts of the entries of a host. -/
def hostView (host : NativeHost Regex) (key : CString) : Option Bytes :=
  (host.values.findEntry key).map CString.bytes

section Promises

variable {host : NativeHost Regex} {key : CString} {text : Bytes}

theorem hostView_eq_some (hstored : hostView host key = some text) :
    ∃ value, host.values.findEntry key = some value ∧ value.bytes = text ∧
      host.values.admitsKey key = true := by
  obtain ⟨value, hfound, hvalue⟩ := Option.map_eq_some_iff.mp hstored
  exact ⟨value, hfound, hvalue,
    ValueStore.admitsKey_iff.mpr (ValueStore.fitsKey_of_findEntry hfound)⟩

/-- A read of a key that is stored. -/
theorem getValue_stored (hstored : hostView host key = some text) (capacity : Nat) :
    getValue host key capacity =
      if text.length < capacity then ⟨.ok, text.length, text ++ [0]⟩
      else ⟨.bufferTooSmall, text.length, []⟩ := by
  obtain ⟨value, hfound, rfl, hadmits⟩ := hostView_eq_some hstored
  have hlength : value.length = value.bytes.length := rfl
  unfold getValue ValueStore.get
  dsimp only
  rw [if_pos hadmits, hfound]
  by_cases hzero : capacity = 0
  · rw [if_pos hzero, if_neg (by omega)]
    rfl
  · rw [if_neg hzero]
    dsimp only
    by_cases hroom : value.bytes.length < capacity
    · rw [if_pos hroom, if_neg (by omega)]
      rfl
    · rw [if_neg hroom, if_pos (by omega)]
      rfl

theorem getValue_missing (hmissing : hostView host key = none) (capacity : Nat) :
    (getValue host key capacity).answer = .notFound ∨
      (getValue host key capacity).answer = .failed := by
  have hfound : host.values.findEntry key = none := Option.map_eq_none_iff.mp hmissing
  unfold getValue ValueStore.get
  dsimp only
  rw [hfound]
  split
  · exact .inl rfl
  · exact .inr rfl

/-- The functions of the native host work on the map of its entries. -/
theorem nativeHostBind_lawful :
    (nativeHostBind : ValueHooks (NativeHost Regex)).Lawful hostView where
  contains := by
    intro host key yes hyes
    change containsValue host key = some yes at hyes
    unfold containsValue ValueStore.contains at hyes
    dsimp only at hyes
    unfold hostView
    rw [Option.isSome_map]
    split at hyes
    next found hfound =>
      split at hfound
      · rw [← Option.some.inj hyes, ← Except.ok.inj hfound]
      · cases hfound
    next => cases hyes
  size := by
    intro host key text hstored
    have hreply := getValue_stored hstored 0
    rw [if_neg (Nat.not_lt_zero _)] at hreply
    exact congrArg ValueReply.size hreply
  read := by
    intro host key text hstored capacity hroom
    exact (getValue_stored hstored capacity).trans (if_pos hroom)
  missing := by
    intro host key hmissing
    show (getValue host key 0).answer ≠ .ok ∧ (getValue host key 0).answer ≠ .bufferTooSmall
    rcases getValue_missing hmissing 0 with hanswer | hanswer
    · rw [hanswer]
      decide
    · rw [hanswer]
      decide
  set := by
    intro host key value next hset
    change setValue host key value = some next at hset
    unfold setValue at hset
    dsimp only at hset
    split at hset
    next hok =>
      have hstatus : (host.values.set (some key) (some value)).2 = .ok := by
        cases hcode : (host.values.set (some key) (some value)).2 <;> rw [hcode] at hok <;>
          first | rfl | cases hok
      obtain ⟨newKey, newValue, hkey, hvalue, -, -, hupdated⟩ :=
        (ValueStore.set_spec host.values (some key) (some value)).updated hstatus
      obtain rfl := Option.some.inj hkey
      obtain rfl := Option.some.inj hvalue
      rw [← Option.some.inj hset]
      funext other
      unfold hostView
      dsimp only
      rw [hupdated]
      by_cases hother : other = key
      · rw [hother, Function.update_self, Function.update_self, Option.map_some]
      · rw [Function.update_of_ne hother, Function.update_of_ne hother]
    next => cases hset
  setBytes := by
    intro setBytes hset
    cases hset

end Promises

end Praktor.Session
