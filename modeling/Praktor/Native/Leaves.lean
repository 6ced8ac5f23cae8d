/-
# The native leaves

The seven leaves of the native host, in the words of the source: every port is resolved
into a buffer, in the source's order, and a leaf publishes at most once, at its end.

`ParseLines` compacts the text in the buffer it reads from.  Its loop works on the bytes
of that buffer with their terminator.
-/

import Mathlib.Algebra.Order.Ring.Nat
import Praktor.Math.Arena
import Praktor.Native.Host

namespace Praktor.Native

open Praktor.Data Praktor.Math Praktor.Values Praktor.Output
open Praktor.Runtime (NodeStatus)

variable {Number Regex : Type}

/-! ## Sleep -/

/-- The factor of a duration's unit. -/
def unitFactor (unit : CString) : Option Nat :=
  if unit.bytes = ascii "s" then some 1000
  else if unit.bytes = ascii "m" then some 60000
  else if unit.bytes = ascii "h" then some 3600000
  else if unit.bytes = [] then some 1
  else if unit.bytes = ascii "ms" then some 1
  else none

/-- The number of milliseconds `sleep_duration` reads. -/
def durationValue (env : Environment Number Regex) (param : Option (LeafValue Number)) :
    LeafM Regex Number := do
  match param with
  | none => return env.multiply env.zero 1
  | some (.number value) => return env.multiply value 1
  | some (.string text) =>
      resolve env (.string text) 0 1
      match env.strtod (← read 0) with
      | none => throw .einval
      | some (value, unit) =>
          match unitFactor unit with
          | none => throw .einval
          | some factor => return env.multiply value factor
  | some (.boolean _) => throw .einval

/-- `sleep_duration`, in nanoseconds. -/
def sleepDuration (env : Environment Number Regex) (param : Option (LeafValue Number)) :
    LeafM Regex Nat := do
  let value ← durationValue env param
  match env.milliseconds value with
  | none => throw .einval
  | some duration => return duration * 1000000

/-- The slot of an activation that is not sleeping: `memset` to zero. -/
def SleepState.free : SleepState := ⟨0, 0, 0, 0, false⟩

/-- `tick_sleep`. -/
def tickSleep (env : Environment Number Regex) (request : LeafRequest Number) :
    LeafM Regex NodeStatus := do
  match request.sessionOwner with
  | none => throw .einval
  | some owner =>
      match findSleep (← get).sleepStates request with
      | none =>
          let duration ← sleepDuration env (parameter request "duration")
          if duration = 0 then return .success
          let host ← get
          match host.sleepStates.findIdx? fun state => !state.active with
          | none => throw .enobufs
          | some slot =>
              set { host with sleepStates :=
                host.sleepStates.set slot ⟨owner, request.nodeIndex, env.now, duration, true⟩ }
              return .running
      | some slot =>
          let host ← get
          match host.sleepStates[slot]? with
          | none => throw .einval
          | some state =>
              if env.now < state.startedNs then throw .einval
              if env.now - state.startedNs < state.durationNs then return .running
              set { host with sleepStates := host.sleepStates.set slot .free }
              return .success

/-! ## ParseLines -/

/-- The buffer of the loop, with the places it reads and writes at. -/
structure Compaction where
  buffer : Bytes
  cursor : Nat
  written : Nat
  count : Nat
  deriving DecidableEq, Repr

/-- The text from a place on, up to its terminator. -/
def textAt (buffer : Bytes) (place : Nat) : Bytes := Arena.text 0 buffer place

/-- The length of the line at a place: up to the next LF or the terminator. -/
def lineLength (buffer : Bytes) (place : Nat) : Nat :=
  ((textAt buffer place).takeWhile (· ≠ 10)).length

/-- Where the line after the one at a place begins. -/
def nextLine (buffer : Bytes) (place : Nat) : Nat :=
  if 10 ∈ textAt buffer place then place + lineLength buffer place + 1
  else place + lineLength buffer place

/-- The line at the cursor, as the filter sees it. -/
def Compaction.line (state : Compaction) : Bytes :=
  Arena.read state.buffer state.cursor (lineLength state.buffer state.cursor)

/-- The buffer with a LF behind what was written, if something was. -/
def Compaction.separated (state : Compaction) : Bytes :=
  if state.written ≠ 0 then Arena.write state.buffer state.written [10] else state.buffer

/-- The bytes `memmove` copies. -/
def Compaction.copied (state : Compaction) : Bytes :=
  Arena.read state.separated state.cursor state.line.length

/-- A kept line moves to the written part. -/
def Compaction.keep (state : Compaction) : Compaction :=
  let start := if state.written ≠ 0 then state.written + 1 else state.written
  { buffer := Arena.write state.separated start state.copied
    cursor := nextLine state.buffer state.cursor
    written := start + state.line.length
    count := state.count + 1 }

/-- One round of the loop of `tick_parse_lines`; `search` is the filter's answer to a line,
when there is a filter. -/
def Compaction.round (search : Option (Bytes → RegexStatus)) (state : Compaction) :
    Except RegexStatus Compaction :=
  match search with
  | none => .ok state.keep
  | some search =>
      match search state.line with
      | .noMatch => .ok { state with cursor := nextLine state.buffer state.cursor }
      | .ok => .ok state.keep
      | status => .error status

/-- The loop, for as many rounds as there are bytes. -/
def compact (search : Option (Bytes → RegexStatus)) : Nat → Compaction → Except RegexStatus Compaction
  | 0, state => .ok state
  | rounds + 1, state =>
      if textAt state.buffer state.cursor = [] then .ok state
      else
        match state.round search with
        | .error status => .error status
        | .ok next => compact search rounds next

/-- The filter of `tick_parse_lines`: an empty text and an invalid pattern are no filter. -/
def lineFilter (env : Environment Number Regex) (request : LeafRequest Number) :
    LeafM Regex (Option (Bytes → RegexStatus)) := do
  match parameter request "filter" with
  | none => return none
  | some param =>
      resolve env param 1 2
      let pattern ← read 1
      if pattern.length = 0 then return none
      match ← cachedRegex env pattern with
      | .ok regex => return some fun line => (env.searchGroup regex line 0).1
      | .error .invalidPattern => return none
      | .error status => throw (regexError status)

/-- The decimal digits of a number, as `snprintf` writes them with `%zu`. -/
def decimal (value : Nat) : CString := CString.literal (toString value)

/-- `tick_parse_lines`. -/
def tickParseLines (env : Environment Number Regex) (request : LeafRequest Number) :
    LeafM Regex NodeStatus := do
  let filter ← lineFilter env request
  port env request "input_key" "shell_output" 0 2
  let host ← get
  match host.values.get (some (host.scratch 0)) (some host.scratchCapacity) with
  | (.enotfound, _, _) => return .failure
  | (.ok, _, some input) =>
      write 1 input
      port env request "output_key" "parsed_lines" 0 2
      let key ← read 0
      if (← get).scratchCapacity - key.length ≤ 6 then throw .enobufs
      write 2 (key.append (CString.literal "_count"))
      match compact filter input.length ⟨input.bytes ++ [0], 0, 0, 0⟩ with
      | .error status => throw (regexError status)
      | .ok state =>
          write 1 (CString.ofBuffer (state.buffer.take state.written))
          let host ← get
          match host.values.setMany [(some key, some (host.scratch 1)),
              (some (host.scratch 2), some (decimal state.count))] with
          | (values, .ok) =>
              set { host with values }
              return .success
          | (_, status) => throw (storeRefusal status)
  | _ => throw .einval

/-! ## ParseJson -/

/-- `isspace` of the C locale. -/
def isspace (byte : UInt8) : Bool := byte = 32 || (9 ≤ byte && byte ≤ 13)

/-- A path without the blanks around it. -/
def trimPath (path : CString) : CString where
  bytes := ((path.bytes.dropWhile isspace).reverse.dropWhile isspace).reverse
  nulFree hzero := path.nulFree (List.dropWhile_subset _ (List.mem_reverse.mp
    (List.dropWhile_subset _ (List.mem_reverse.mp hzero))))

/-- The path as the JSON package reads it, in a buffer of a size. -/
def jsonPath (capacity : Nat) (path : CString) : Except Salts CString :=
  match (trimPath path).bytes with
  | [] => if 1 ≥ capacity then .error .enobufs else .ok (CString.literal "$")
  | 91 :: _ =>
      if (trimPath path).length + 1 ≥ capacity then .error .enobufs
      else .ok ((CString.literal "$").append (trimPath path))
  | 36 :: _ => .ok (trimPath path)
  | _ =>
      if (trimPath path).length + 2 ≥ capacity then .error .enobufs
      else .ok ((CString.literal "$.").append (trimPath path))

/-- The text a selected value is published as. -/
def selectedText (env : Environment Number Regex) (selected : Json) : Except Salts CString :=
  match selected with
  | .string text =>
      match CString.ofBytes text with
      | none => .error .enotsup
      | some text => .ok text
  | other =>
      match env.serialize other with
      | none => .error .enomem
      | some text => .ok text

/-- `tick_parse_json` has a reading of its own for a store without memory. -/
def jsonRefusal : ValueStatus → Salts
  | .enomem => .enomem
  | .einval => .einval
  | _ => .enobufs

/-- `tick_parse_json`. -/
def tickParseJson (env : Environment Number Regex) (request : LeafRequest Number) :
    LeafM Regex NodeStatus := do
  port env request "input_key" "shell_output" 0 3
  let host ← get
  match host.values.get (some (host.scratch 0)) (some host.scratchCapacity) with
  | (.enotfound, _, _) => return .failure
  | (.ok, _, some input) =>
      write 1 input
      port env request "path" "" 2 3
      match jsonPath (← get).scratchCapacity (← read 2) with
      | .error code => throw code
      | .ok path =>
          write 2 path
          port env request "output_key" "parsed_output" 4 3
          match env.parse (← read 1).bytes with
          | none => return .failure
          | some document =>
              match env.pathGet document (← read 2) with
              | none => return .failure
              | some selected =>
                  match selectedText env selected with
                  | .error code => throw code
                  | .ok value =>
                      if value.length ≥ (← get).scratchCapacity then throw .enobufs
                      publish jsonRefusal (← read 4) value
  | (.enobufs, _, _) => throw .enobufs
  | _ => throw .einval

/-! ## ParseRegex -/

/-- `tick_parse_regex`. -/
def tickParseRegex (env : Environment Number Regex) (request : LeafRequest Number) :
    LeafM Regex NodeStatus := do
  port env request "input_key" "shell_output" 0 2
  let host ← get
  match host.values.get (some (host.scratch 0)) (some host.scratchCapacity) with
  | (.enotfound, _, _) => return .failure
  | (.ok, _, some input) =>
      write 1 input
      port env request "pattern" "" 3 2
      match ← cachedRegex env (← read 3) with
      | .error .invalidPattern => return .failure
      | .error status => throw (regexError status)
      | .ok regex =>
          let group ← resolveInteger env (parameter request "capture_group") 1 2
          if group ≤ 0 || group.toNat > env.captureCount regex then return .failure
          match env.searchGroup regex (← read 1).bytes group.toNat with
          | (.noMatch, _) => return .failure
          | (.ok, found) =>
              port env request "output_key" "parsed_output" 0 2
              if !found.participated then write 2 (CString.literal "")
              else
                if found.size ≥ (← get).scratchCapacity then throw .enobufs
                write 2 (((← read 1).drop found.offset).take found.size)
              publish storeRefusal (← read 0) (← read 2)
          | (status, _) => throw (regexError status)
  | _ => throw .einval

/-! ## ParseKeyValue -/

/-- `tick_parse_key_value`, with the rounds of its loop over the ports written one after the
other. -/
def tickParseKeyValue (env : Environment Number Regex) (request : LeafRequest Number) :
    LeafM Regex NodeStatus := do
  port env request "input_key" "shell_output" 3 4
  let host ← get
  match host.values.get (some (host.scratch 3)) (some host.scratchCapacity) with
  | (.enotfound, _, _) => return .failure
  | (.ok, _, some input) =>
      write 0 input
      port env request "delimiter" "=" 1 4
      port env request "line_separator" "\n" 2 4
      port env request "output_key" "parsed_output" 3 4
      let host ← get
      match praktorOutputKeyValueJson (host.scratch 0).bytes (host.scratch 1).bytes
          (host.scratch 2).bytes host.pairCapacity host.scratchCapacity with
      | .insufficient => throw .enobufs
      | .invalid => throw .einval
      | .ok output =>
          write 4 (CString.ofBuffer output)
          publish storeRefusal (← read 3) (← read 4)
  | _ => throw .einval

/-! ## SetVariable and CheckExitCode -/

/-- The `SetVariable` branch of `tick_leaf`. -/
def tickSetVariable (env : Environment Number Regex) (request : LeafRequest Number) :
    LeafM Regex NodeStatus := do
  match parameter request "key" with
  | none => return .failure
  | some param =>
      resolve env param 0 2
      match parameter request "value" with
      | some param =>
          resolve env param 1 2
          publish (fun _ => .enobufs) (← read 0) (← read 1)
      | none =>
          match parameter request "from" with
          | none => return .failure
          | some param =>
              resolve env param 2 1
              let host ← get
              match host.values.contains (some (host.scratch 2)) with
              | .error _ => throw .einval
              | .ok false => return .failure
              | .ok true =>
                  match host.values.get (some (host.scratch 2)) (some host.scratchCapacity) with
                  | (.ok, _, some value) =>
                      write 1 value
                      publish (fun _ => .enobufs) (← read 0) (← read 1)
                  | _ => throw .einval

/-- The exit code `CheckExitCode` expects.  Every refusal is an invalid argument. -/
def expectedCode (env : Environment Number Regex) (request : LeafRequest Number) :
    LeafM Regex Int := do
  match parameter request "expected" with
  | none => return 0
  | some (.boolean _) => throw .einval
  | some (.number value) =>
      match env.toInt value with
      | some value => return value
      | none => throw .einval
  | some (.string text) =>
      try
        resolve env (.string text) 1 2
      catch _ => throw .einval
      match parseInteger env (← read 1) with
      | .ok value => return value
      | .error _ => throw .einval

/-- The `CheckExitCode` branch of `tick_leaf`. -/
def tickCheckExitCode (env : Environment Number Regex) (request : LeafRequest Number) :
    LeafM Regex NodeStatus := do
  port env request "input_key" "shell_exit_code" 0 2
  let expected ← expectedCode env request
  let host ← get
  match host.values.get (some (host.scratch 0)) (some host.scratchCapacity) with
  | (.enotfound, _, _) => return .failure
  | (.ok, _, some value) =>
      write 1 value
      match parseInteger env (← read 1) with
      | .error _ => throw .einval
      | .ok actual => return if actual = expected then .success else .failure
  | _ => throw .einval

/-! ## The leaf -/

/-- The argument checks of `tick_leaf` on the parameters: every one has a name of its own. -/
def namesAdmitted : List (LeafParameter Number) → Bool
  | [] => true
  | entry :: rest => entry.name.isSome && rest.all (fun other => other.name ≠ entry.name) &&
      namesAdmitted rest

/-- `tick_leaf` of the native host. -/
def tickLeaf (env : Environment Number Regex) (request : LeafRequest Number) :
    LeafM Regex NodeStatus := do
  if request.inParallelBranch then throw .enotsup
  if !namesAdmitted request.parameters then throw .einval
  if request.action.bytes = ascii "Sleep" then tickSleep env request
  else if (findSleep (← get).sleepStates request).isSome then throw .einval
  else if request.action.bytes = ascii "ParseJson" then tickParseJson env request
  else if request.action.bytes = ascii "ParseRegex" then tickParseRegex env request
  else if request.action.bytes = ascii "ParseLines" then tickParseLines env request
  else if request.action.bytes = ascii "ParseKeyValue" then tickParseKeyValue env request
  else if request.action.bytes = ascii "SetVariable" then tickSetVariable env request
  else if request.action.bytes = ascii "CheckExitCode" then tickCheckExitCode env request
  else throw .enotsup

/-- `halt_typed_leaf`. -/
def haltTypedLeaf (request : LeafRequest Number) (host : NativeHost Regex) : NativeHost Regex :=
  match findSleep host.sleepStates request with
  | none => host
  | some slot => { host with sleepStates := host.sleepStates.set slot .free }

end Praktor.Native
