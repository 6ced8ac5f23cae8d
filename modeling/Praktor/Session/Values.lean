/-
# The values of a session

A session reads the parameters of its nodes and the values of its host.  A text is one of the
plan, or it stands in one of four scratch buffers: the fourth holds the key of a parameter of the
form `{key}` while its value is read into one of the others.

The functions of the value store belong to the host.  The store that they work on is part of the
state, and so are the outcomes of the coming requests for memory.
-/

import Praktor.Math.Stateful
import Praktor.Session.Cache
import Praktor.Session.Nodes

namespace Praktor.Session

open Praktor.Data Praktor.Math
open Praktor.Runtime (TreeConfig)

/-! ## The value store -/

/-- The answers of the functions of a value store. -/
inductive ValueAnswer
  | ok
  | notFound
  | bufferTooSmall
  | failed
  deriving DecidableEq, Repr

/-- What `value_get` answers: the size, and what it puts at the front of the buffer. -/
structure ValueReply where
  answer : ValueAnswer
  size : Nat
  data : Bytes

/-- The functions of a value store.  A function that is refused gives nothing; texts may also be
set by their bytes, for `compatibility_set_bytes`. -/
structure ValueHooks (Store : Type) where
  valueGet : Store → CString → Nat → ValueReply
  valueContains : Store → CString → Option Bool
  valueSet : Store → CString → CString → Option Store
  setBytes : Option (Store → CString → Bytes → Option Store)

/-- A text is stored under a key: a query for its size, and a read of a buffer that is large
enough, answer as the host promises. -/
structure ValueHooks.Stores {Store : Type} (hooks : ValueHooks Store) (store : Store)
    (key : CString) (text : Bytes) : Prop where
  empty : text = [] → (hooks.valueGet store key 0).answer = .ok
  query : text ≠ [] → (hooks.valueGet store key 0).answer = .bufferTooSmall
  size : (hooks.valueGet store key 0).size = text.length
  read : ∀ capacity, text.length < capacity →
    hooks.valueGet store key capacity = ⟨.ok, text.length, text ++ [0]⟩

/-! ## Sessions -/

/-- The limits of `praktor_c11_session_config`, as `praktor_c11_session_init` admits them. -/
structure SessionConfig where
  tree : TreeConfig
  maxValueBytes : Nat
  maxStateBytes : Nat
  values_pos : 0 < maxValueBytes
  values_lt : maxValueBytes < sizeMax
  states_pos : 0 < maxStateBytes
  states_lt : maxStateBytes < sizeMax

/-- `config` and `nodes` of `session_impl`. -/
structure SessionImpl (Number : Type) (count : Nat) where
  config : SessionConfig
  nodes : Fin count → SessionNode Number

/-- `session_node_state`, without the process and the owner of a leaf. -/
structure NodeState where
  branch : Bool := false
  pipeline : Bool := false
  observed : Bool := false
  queueActive : Bool := false
  queueMore : Bool := false
  childCount : Nat := 0
  activeChild : Nat := 0
  restoreTick : Nat := 0
  deriving DecidableEq, Repr

/-- What `session_impl` changes, with the store of the host and the keys that were asked for. -/
structure SessionState (Store : Type) (count : Nat) where
  store : Store
  scratch : Fin 4 → Bytes
  fresh : List Fresh
  pool : CachePool count
  state : Fin count → NodeState
  generation : Nat
  queries : List CString

/-- A function of a session. -/
abbrev SessionM (Store : Type) (count : Nat) := Stateful (SessionState Store count) Salts

/-- `session_text`: a text of its own, or one in a scratch buffer. -/
inductive SessionText
  | bytes (text : Bytes)
  | scratch (buffer : Fin 4) (size : Nat)

variable {Store Number : Type} {count : Nat}

/-! ## Scratch -/

namespace SessionText

/-- The bytes of a text. -/
def read (s : SessionState Store count) : SessionText → Bytes
  | .bytes text => text
  | .scratch buffer size => (s.scratch buffer).take size

/-- A text where a function takes a C string. -/
def cString (s : SessionState Store count) : SessionText → CString
  | .bytes text => CString.ofBuffer text
  | .scratch buffer _ => CString.ofBuffer (s.scratch buffer)

/-- The size of a text. -/
def size : SessionText → Nat
  | .bytes text => text.length
  | .scratch _ size => size

end SessionText

/-- The bytes of a text as it is now. -/
def textOf (value : SessionText) : SessionM Store count Bytes := do return value.read (← get)

/-- The C string of a text as it is now. -/
def keyOf (value : SessionText) : SessionM Store count CString := do return value.cString (← get)

/-- A scratch buffer with new bytes. -/
def SessionState.withScratch (s : SessionState Store count) (buffer : Fin 4) (data : Bytes) :
    SessionState Store count :=
  { s with scratch := Function.update s.scratch buffer data }

/-- Bytes are put into a scratch buffer. -/
def putScratch (buffer : Fin 4) (offset : Nat) (items : Bytes) : SessionM Store count PUnit :=
  modify fun s => s.withScratch buffer (Arena.write (s.scratch buffer) offset items)

/-- `session_buffer_reserve` of a scratch buffer. -/
def reserveScratch (buffer : Fin 4) (bytes limit : Nat) : SessionM Store count PUnit := do
  let s ← get
  modify fun s => { s with fresh := s.fresh.tail }
  match sessionBufferReserve (s.scratch buffer) bytes limit
      (s.fresh.headD (some fun _ => 0)) with
  | .error code => throw code
  | .ok data => modify fun s => s.withScratch buffer data

/-! ## Values -/

section Values

variable (hooks : ValueHooks Store) (session : SessionImpl Number count)

/-- The read of `session_get` after its query. -/
def readValue (key : SessionText) (scratch : Fin 4) (required : Nat) :
    SessionM Store count SessionText := do
  reserveScratch scratch required session.config.maxValueBytes
  putScratch scratch required [0]
  let name ← keyOf key
  let s ← get
  let reply := hooks.valueGet s.store name (s.scratch scratch).length
  putScratch scratch 0 reply.data
  let s ← get
  if reply.answer ≠ .ok ∨ reply.size ≠ required ∨ (s.scratch scratch)[required]? ≠ some 0 then
    throw .eio
  else return .scratch scratch reply.size

/-- `session_get`. -/
def sessionGet (key : SessionText) (scratch : Fin 4) : SessionM Store count SessionText := do
  if scratch = 3 then throw .enotsup
  else
    let name ← keyOf key
    modify fun s => { s with queries := s.queries ++ [name] }
    let reply := hooks.valueGet (← get).store name 0
    if reply.answer = .notFound then throw .einval
    else if reply.answer = .ok ∧ reply.size = 0 then return .bytes []
    else if reply.answer ≠ .bufferTooSmall then throw .eio
    else readValue hooks session key scratch reply.size

/-- `session_has`. -/
def sessionHas (key : SessionText) : SessionM Store count Bool := do
  let name ← keyOf key
  match hooks.valueContains (← get).store name with
  | none => throw .eio
  | some yes => return yes

/-- `session_set`. -/
def sessionSet (key value : SessionText) : SessionM Store count PUnit := do
  let text ← textOf value
  if text.length > session.config.maxValueBytes then throw .enobufs
  else
    let name ← keyOf key
    let s ← get
    match hooks.setBytes with
    | some setBytes =>
        match setBytes s.store name text with
        | none => throw .eio
        | some store => modify fun s => { s with store }
    | none =>
        match CString.ofBytes text with
        | none => throw .einval
        | some text =>
            match hooks.valueSet s.store name text with
            | none => throw .eio
            | some store => modify fun s => { s with store }

end Values

/-! ## Parameters -/

section Parameters

variable (numbers : SessionNumbers Number) (hooks : ValueHooks Store)
  (session : SessionImpl Number count)

/-- `session_parameter`. -/
def sessionParameter (node : Fin count) (name : String) : Option (ParameterValue Number) :=
  findParameter (session.nodes node).parameters name

/-- `session_resolve` of a text. -/
def resolveText (text : Bytes) (scratch : Fin 4) : SessionM Store count SessionText := do
  if text.length > session.config.maxValueBytes then throw .enobufs
  else if 3 ≤ text.length ∧ text.head? = some 123 ∧ text.getLast? = some 125 then
    let inner := (text.drop 1).take (text.length - 2)
    reserveScratch 3 (text.length - 2) session.config.maxValueBytes
    putScratch 3 0 inner
    putScratch 3 (text.length - 2) [0]
    if 0 ∈ inner then throw .einval
    else sessionGet hooks session (.scratch 3 (text.length - 2)) scratch
  else return .bytes text

/-- `session_resolve`. -/
def sessionResolve (node : Fin count) (name : String) (fallback : Option String)
    (scratch : Fin 4) : SessionM Store count SessionText := do
  if scratch = 3 then throw .einval
  else
    match sessionParameter session node name with
    | none =>
        match fallback with
        | none => throw .einval
        | some text =>
            if (ascii text).length > session.config.maxValueBytes then throw .enobufs
            else return .bytes (ascii text)
    | some (.boolean value) => return .bytes (ascii (if value then "true" else "false"))
    | some (.number value) =>
        if !numbers.isfinite value then throw .einval
        else
          let text := numbers.format value
          reserveScratch scratch text.length session.config.maxValueBytes
          putScratch scratch 0 (text ++ [0])
          return .scratch scratch text.length
    | some (.string text) => resolveText hooks session text scratch

/-- `session_key`. -/
def sessionKey (node : Fin count) (name : String) (fallback : Option String) (scratch : Fin 4) :
    SessionM Store count SessionText := do
  let text ← sessionResolve numbers hooks session node name fallback scratch
  if 0 ∈ (← textOf text) then throw .einval else return text

/-- `session_integer`. -/
def sessionInteger (node : Fin count) (name : String) (fallback : Int) :
    SessionM Store count Int := do
  match sessionParameter session node name with
  | none => return fallback
  | some (.boolean _) => throw .einval
  | some (.number value) =>
      match numbers.toInt value with
      | none => throw .einval
      | some value => return value
  | some (.string text) =>
      let value ←
        if text = [123, 125] then sessionGet hooks session (.bytes []) 0
        else sessionResolve numbers hooks session node name none 0
      match praktorC11ParseInteger numbers (← textOf value) with
      | none => throw .einval
      | some value => return value

end Parameters

end Praktor.Session
