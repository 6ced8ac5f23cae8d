/-
# The native host

The host of the native leaves owns one value store, five scratch buffers of one size, a
cache of compiled expressions and the slots of sleeping leaves.  Every leaf is a
computation that works on this state and answers with a status of the node or an error.

The numbers of C, the expressions of TRE and the JSON library are packages of their own.
What one call learns from them, and from the clock, is its environment.  A buffer is the
text in it.
-/

import Praktor.Data.Json
import Praktor.Output.Scan
import Praktor.Runtime.Leaf

namespace Praktor.Native

open Praktor.Data Praktor.Values Praktor.Output
open Praktor.Runtime (NodeStatus reference)

/-- `praktor_regex_status`. -/
inductive RegexStatus
  | ok
  | noMatch
  | invalidPattern
  | unsupported
  | limit
  | nomem
  | engine
  deriving DecidableEq, Repr

/-- `praktor_regex_span`. -/
structure RegexSpan where
  offset : Nat
  size : Nat
  participated : Bool
  deriving DecidableEq, Repr

/-- What one call of the host learns from the packages it uses. -/
structure Environment (Number : Type) (Regex : Type) where
  isfinite : Number → Bool
  /-- `snprintf` with `%.6f`. -/
  format : Number → CString
  /-- The number as an `int`, when it is finite, integral and in range. -/
  toInt : Number → Option Int
  /-- `strtod`: the number and what follows it, unless nothing was read or the number is out
  of range. -/
  strtod : CString → Option (Number × CString)
  zero : Number
  multiply : Number → Nat → Number
  /-- The integral part of a finite number from 0 to `INT_MAX`. -/
  milliseconds : Number → Option Nat
  /-- `praktor_regex_compile`. -/
  compile : CString → Except RegexStatus Regex
  captureCount : Regex → Nat
  /-- `praktor_regex_search_group`. -/
  searchGroup : Regex → Bytes → Nat → RegexStatus × RegexSpan
  /-- `json_parse`, `json_path_get` and `json_serialize`. -/
  parse : Bytes → Option Json
  pathGet : Json → CString → Option Json
  serialize : Json → Option CString
  /-- `now_ns`. -/
  now : Nat

/-- The kind of a parameter with its value; a text may be a null pointer. -/
inductive LeafValue (Number : Type)
  | boolean (value : Bool)
  | number (value : Number)
  | string (text : Option CString)

/-- `praktor_c11_leaf_parameter`. -/
structure LeafParameter (Number : Type) where
  name : Option CString
  value : LeafValue Number

/-- `praktor_c11_leaf_request`. -/
structure LeafRequest (Number : Type) where
  sessionOwner : Option Nat
  nodeIndex : Nat
  action : CString
  parameters : List (LeafParameter Number)
  inParallelBranch : Bool

/-- `native_sleep_state`. -/
structure SleepState where
  sessionOwner : Nat
  nodeIndex : Nat
  startedNs : Nat
  durationNs : Nat
  active : Bool
  deriving DecidableEq, Repr

/-- `native_regex_cache_entry` that is occupied. -/
structure RegexEntry (Regex : Type) where
  pattern : CString
  compiled : Except RegexStatus Regex

/-- `native_host_impl`.  A free place of the cache is `none`. -/
structure NativeHost (Regex : Type) where
  values : ValueStore
  scratchCapacity : Nat
  scratch : Fin 5 → CString
  pairCapacity : Nat
  sleepStates : List SleepState
  regexCache : List (Option (RegexEntry Regex))

/-- A computation of the host. -/
abbrev LeafM (Regex : Type) := ExceptT Salts (StateM (NativeHost Regex))

variable {Number : Type} {Regex : Type}

/-- A text is put into a buffer. -/
def write (buffer : Fin 5) (text : CString) : LeafM Regex Unit :=
  modify fun host => { host with scratch := Function.update host.scratch buffer text }

/-- The text in a buffer. -/
def read (buffer : Fin 5) : LeafM Regex CString := do
  return (← get).scratch buffer

/-- `parameter`. -/
def parameter (request : LeafRequest Number) (name : String) : Option (LeafValue Number) :=
  (request.parameters.find? fun entry => entry.name = some (CString.literal name)).map
    LeafParameter.value

/-- `copy_text` of a text that is there. -/
def copyText (out : Fin 5) (text : CString) : LeafM Regex Unit := do
  if text.length ≥ (← get).scratchCapacity then throw .enobufs
  write out text

/-- `resolve` of a parameter that is there. -/
def resolve (env : Environment Number Regex) (param : LeafValue Number) (out keyScratch : Fin 5) :
    LeafM Regex Unit := do
  match param with
  | .boolean value => copyText out (CString.literal (if value then "true" else "false"))
  | .number value =>
      if !env.isfinite value then throw .einval
      copyText out (env.format value)
  | .string none => throw .einval
  | .string (some text) =>
      match reference text with
      | none => copyText out text
      | some key =>
          if key.length ≥ (← get).scratchCapacity then throw .enobufs
          write keyScratch key
          let host ← get
          match host.values.get (some key) (some host.scratchCapacity) with
          | (.ok, _, some value) => write out value
          | _ => throw .einval

/-- A port: its parameter, or the default when there is none. -/
def port (env : Environment Number Regex) (request : LeafRequest Number) (name fallback : String)
    (out keyScratch : Fin 5) : LeafM Regex Unit :=
  match parameter request name with
  | none => copyText out (CString.literal fallback)
  | some param => resolve env param out keyScratch

/-- `parse_integer`. -/
def parseInteger (env : Environment Number Regex) (text : CString) : Except Salts Int :=
  match env.strtod text with
  | some (value, rest) =>
      if rest.length ≠ 0 then .error .einval
      else
        match env.toInt value with
        | some value => .ok value
        | none => .error .einval
  | none => .error .einval

/-- `resolve_integer`; the buffer after `scratch` takes a key. -/
def resolveInteger (env : Environment Number Regex) (param : Option (LeafValue Number))
    (defaultValue : Int) (scratch : Fin 5) : LeafM Regex Int := do
  match param with
  | none => return defaultValue
  | some (.boolean _) => throw .einval
  | some (.number value) =>
      match env.toInt value with
      | some value => return value
      | none => throw .einval
  | some (.string text) =>
      resolve env (.string text) scratch (scratch + 1)
      liftExcept (parseInteger env (← read scratch))
where
  liftExcept : Except Salts Int → LeafM Regex Int
    | .ok value => return value
    | .error code => throw code

/-- `cached_regex`. -/
def cachedRegex (env : Environment Number Regex) (pattern : CString) :
    LeafM Regex (Except RegexStatus Regex) := do
  let host ← get
  match host.regexCache.findSome? fun place => place.filter fun entry => entry.pattern = pattern with
  | some entry => return entry.compiled
  | none =>
      match host.regexCache.findIdx? Option.isNone with
      | none => return .error .limit
      | some available =>
          if pattern.length ≥ host.scratchCapacity then return .error .limit
          let compiled := env.compile pattern
          set { host with regexCache := host.regexCache.set available (some ⟨pattern, compiled⟩) }
          return compiled

/-- `regex_error`. -/
def regexError : RegexStatus → Salts
  | .unsupported => .enotsup
  | .limit => .enobufs
  | .nomem => .enomem
  | .engine => .eio
  | _ => .einval

/-- `find_sleep`: the place of the slot. -/
def findSleep (states : List SleepState) (request : LeafRequest Number) : Option Nat :=
  states.findIdx? fun state =>
    state.active && some state.sessionOwner = request.sessionOwner &&
      state.nodeIndex = request.nodeIndex

/-- `praktor_c11_value_store_set` at the end of a leaf, with the leaf's own reading of the
refusals. -/
def publish (refusal : ValueStatus → Salts) (key value : CString) : LeafM Regex NodeStatus := do
  let host ← get
  match host.values.set (some key) (some value) with
  | (values, .ok) =>
      set { host with values }
      return .success
  | (_, status) => throw (refusal status)

/-- The reading most leaves share. -/
def storeRefusal : ValueStatus → Salts
  | .einval => .einval
  | _ => .enobufs

end Praktor.Native
