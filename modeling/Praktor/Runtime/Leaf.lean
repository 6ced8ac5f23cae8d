/-
# The leaf of a session

A plan that `make_plan` admits has one leaf: a Shell or a SetVariable, alone or below a
Sequence.  A session ends with the status of that leaf, so its effect on the scope is the
effect of the leaf.  A Shell resolves and caches its ports when the process is started
and writes the results when it has ended; a SetVariable is executed by the native host.

The process, the numbers `strtod` reads and the outcomes of the allocation calls come
from outside.  Every call that may have to enlarge a buffer takes one outcome, a
successful one when the buffer is large enough.
-/

import Praktor.Runtime.Execution

namespace Praktor.Runtime

open Praktor.Data Praktor.Values Praktor.Workflow

/-- The parameters of a leaf, in order. -/
abbrev LeafParams := List (CString × CString)

/-- `session_parameter`, and `parameter` of the native host. -/
def parameter (params : LeafParams) (name : CString) : Option CString := params.lookup name

/-- `max_value_bytes` and `max_state_bytes` of a session. -/
def maxSessionBytes : Nat := 16 * 1024 * 1024

/-- The key a text of the form `{key}` refers to. -/
def reference (text : CString) : Option CString :=
  if 3 ≤ text.length ∧ text.bytes.head? = some 123 ∧ text.bytes.getLast? = some 125 then
    some ((text.drop 1).take (text.length - 2))
  else none

/-! ## Values of a session -/

/-- `session_get`: ask for the size, then read. -/
def sessionGet (store : ValueStore) (key : CString) (schedule : AllocSchedule) :
    Except Salts CString × AllocSchedule :=
  match store.get (some key) none with
  | (.enotfound, _, _) => (.error .einval, schedule)
  | (.enobufs, some required, _) =>
      if required > maxSessionBytes then (.error .enobufs, schedule)
      else
        match schedule.alloc with
        | (none, schedule) => (.error .enomem, schedule)
        | (some _, schedule) =>
            match store.get (some key) (some (required + 1)) with
            | (.ok, some actual, some text) =>
                if actual = required then (.ok text, schedule) else (.error .eio, schedule)
            | _ => (.error .eio, schedule)
  | _ => (.error .eio, schedule)

/-- `session_set`. -/
def sessionSet (store : ValueStore) (key : CString) (value : Bytes) : ValueStore × Salts :=
  if value.length > maxSessionBytes then (store, .enobufs)
  else
    match CString.ofBytes value with
    | none => (store, .einval)
    | some text =>
        match store.set (some key) (some text) with
        | (next, .ok) => (next, .ok)
        | (next, _) => (next, .eio)

/-- `session_resolve` on the parameters of a plan, which are texts.  `session_key` is the
same: a text has no NUL. -/
def sessionResolve (params : LeafParams) (store : ValueStore) (name : CString)
    (fallback : Option CString) (schedule : AllocSchedule) : Except Salts CString × AllocSchedule :=
  match parameter params name with
  | none =>
      match fallback with
      | none => (.error .einval, schedule)
      | some text =>
          if text.length > maxSessionBytes then (.error .enobufs, schedule)
          else (.ok text, schedule)
  | some text =>
      if text.length > maxSessionBytes then (.error .enobufs, schedule)
      else
        match reference text with
        | none => (.ok text, schedule)
        | some key =>
            match schedule.alloc with
            | (none, schedule) => (.error .enomem, schedule)
            | (some _, schedule) => sessionGet store key schedule

/-- `session_cache` of a text in a slot that is free, with `used` bytes in the pool. -/
def sessionCache (used : Nat) (text : CString) (schedule : AllocSchedule) :
    Except Salts Nat × AllocSchedule :=
  if text.length ≥ maxSessionBytes ∨ used > maxSessionBytes - text.length - 1 then
    (.error .enobufs, schedule)
  else
    match schedule.alloc with
    | (none, schedule) => (.error .enomem, schedule)
    | (some _, schedule) => (.ok (used + (text.length + 1)), schedule)

/-- `session_integer`; `parse` is `praktor_c11_parse_integer`. -/
def sessionInteger (parse : CString → Option Int) (params : LeafParams) (store : ValueStore)
    (name : CString) (fallback : Int) (schedule : AllocSchedule) : Option Int × AllocSchedule :=
  match parameter params name with
  | none => (some fallback, schedule)
  | some text =>
      match (if text = .literal "\x7b\x7d" then sessionGet store (.literal "") schedule
        else sessionResolve params store name none schedule) with
      | (.error _, schedule) => (none, schedule)
      | (.ok text, schedule) => (parse text, schedule)

/-! ## Shell -/

/-- What a leaf writes a text for. -/
inductive LeafPort
  | output
  | errors
  | exitCode
  | shellError
  | variable
  deriving DecidableEq, Repr

/-- A write of a leaf. -/
structure LeafWrite where
  port : LeafPort
  key : CString
  value : Bytes
  deriving DecidableEq

/-- A leaf after its last tick: the status of the tick, the status of the node, the scope
and the writes that succeeded. -/
structure LeafRun where
  code : Salts
  status : NodeStatus
  scope : ValueStore
  writes : List LeafWrite

/-- The leaf has succeeded. -/
def LeafRun.Passed (run : LeafRun) : Prop := run.code = .ok ∧ run.status = .success

/-- What a Shell learns from its process. -/
structure ProcessRun where
  started : Bool
  ticked : Bool
  failed : Bool
  outputLimited : Bool
  exited : Bool
  exitCode : Int
  stdout : Bytes
  stderr : Bytes
  closed : Bool

/-- The process ended well and was closed. -/
def ProcessRun.passed (process : ProcessRun) : Bool :=
  !process.failed && !process.outputLimited && process.exited && process.exitCode = 0 &&
    process.closed

/-- The exit code that is published. -/
def ProcessRun.code (process : ProcessRun) : Int :=
  if process.failed || process.outputLimited then -1 else process.exitCode

/-- The table `ports` of `start_process`: name and fallback. -/
def shellParameters : List (CString × Option CString) :=
  [(.literal "cmd", none), (.literal "input", some (.literal "")),
    (.literal "working_dir", some (.literal "")),
    (.literal "output_key", some (.literal "shell_output")),
    (.literal "stderr_key", some (.literal "shell_stderr")),
    (.literal "exit_code_key", some (.literal "shell_exit_code"))]

/-- The loop of `start_process` over that table: the texts cached, and whether all of
them were. -/
def cacheParameters (params : LeafParams) (store : ValueStore) :
    List (CString × Option CString) → List CString → Nat → AllocSchedule →
      List CString × Bool × AllocSchedule
  | [], cached, _, schedule => (cached, true, schedule)
  | (name, fallback) :: rest, cached, used, schedule =>
      match sessionResolve params store name fallback schedule with
      | (.error _, schedule) => (cached, false, schedule)
      | (.ok text, schedule) =>
          match sessionCache used text schedule with
          | (.error _, schedule) => (cached, false, schedule)
          | (.ok used, schedule) =>
              cacheParameters params store rest (cached ++ [text]) used schedule

/-- Whether `stream_output` is absent or a boolean. -/
def streamsOutput (params : LeafParams) (store : ValueStore) (schedule : AllocSchedule) :
    Bool × AllocSchedule :=
  match parameter params (.literal "stream_output") with
  | none => (true, schedule)
  | some _ =>
      match sessionResolve params store (.literal "stream_output") none schedule with
      | (.error _, schedule) => (false, schedule)
      | (.ok text, schedule) =>
          (text.bytes.map lower = ascii "true" || text.bytes.map lower = ascii "false", schedule)

/-- `start_process`: the texts cached and whether the process was started. -/
def startProcess (parse : CString → Option Int) (params : LeafParams) (store : ValueStore)
    (process : ProcessRun) (schedule : AllocSchedule) : List CString × Bool :=
  if parameter params (.literal "cmd") = none then ([], false)
  else
    match cacheParameters params store shellParameters [] 0 schedule with
    | (cached, false, _) => (cached, false)
    | (cached, true, schedule) =>
        if cached[0]?.map CString.length = some 0 then (cached, false)
        else
          match streamsOutput params store schedule with
          | (false, _) => (cached, false)
          | (true, schedule) =>
              match sessionInteger parse params store (.literal "timeout") 30000 schedule with
              | (some timeout, _) => (cached, 0 < timeout && process.started)
              | (none, _) => (cached, false)

/-- Write in order, up to the first write that is refused. -/
def writeAll : ValueStore → List LeafWrite → ValueStore × Salts × List LeafWrite
  | store, [] => (store, .ok, [])
  | store, write :: rest =>
      match sessionSet store write.key write.value with
      | (store, .ok) =>
          match writeAll store rest with
          | (store, status, done) => (store, status, write :: done)
      | (store, status) => (store, status, [])

/-- The writes of `publish_process`. -/
def processWrites (cached : List CString) (exitCode : Int) (success : Bool)
    (process : ProcessRun) : List LeafWrite :=
  [⟨.output, cached[3]?.getD (.literal "shell_output"), process.stdout⟩,
    ⟨.errors, cached[4]?.getD (.literal "shell_stderr"), process.stderr⟩,
    ⟨.exitCode, cached[5]?.getD (.literal "shell_exit_code"), ascii (toString exitCode)⟩] ++
    if success then [] else [⟨.shellError, .literal "shell_error", process.stderr⟩]

/-- `tick_process`, from the start of the process to its end. -/
def tickProcess (parse : CString → Option Int) (params : LeafParams) (store : ValueStore)
    (process : ProcessRun) (schedule : AllocSchedule) : LeafRun :=
  match startProcess parse params store process schedule with
  | (cached, false) =>
      match writeAll store (processWrites cached (-1) false process) with
      | (store, _, writes) => ⟨.ok, .failure, store, writes⟩
  | (cached, true) =>
      if !process.ticked then ⟨.ok, .failure, store, []⟩
      else
        match writeAll store (processWrites cached process.code process.passed process) with
        | (store, status, writes) =>
            ⟨.ok, if process.passed && status = .ok then .success else .failure, store, writes⟩

/-! ## SetVariable -/

/-- The size of one scratch buffer of the native host. -/
def scratchCapacity (store : ValueStore) : Nat :=
  max store.limits.maxKeyBytes store.limits.maxValueBytes + 1

/-- `resolve` of the native host, on a text. -/
def hostResolve (store : ValueStore) (text : CString) : Except Salts CString :=
  match reference text with
  | some key =>
      if key.length ≥ scratchCapacity store then .error .enobufs
      else
        match store.get (some key) (some (scratchCapacity store)) with
        | (.ok, _, some value) => .ok value
        | _ => .error .einval
  | none => if text.length ≥ scratchCapacity store then .error .enobufs else .ok text

/-- The text a SetVariable stores, `none` when it fails without an error. -/
def variableText (params : LeafParams) (store : ValueStore) : Except Salts (Option CString) :=
  match parameter params (.literal "value"), parameter params (.literal "from") with
  | some text, _ => (hostResolve store text).map some
  | none, some text =>
      match hostResolve store text with
      | .error status => .error status
      | .ok name =>
          match store.contains (some name) with
          | .error _ => .error .einval
          | .ok false => .ok none
          | .ok true =>
              match store.get (some name) (some (scratchCapacity store)) with
              | (.ok, _, some value) => .ok (some value)
              | _ => .error .einval
  | none, none => .ok none

/-- `tick_leaf` of the native host on a SetVariable. -/
def tickSetVariable (params : LeafParams) (store : ValueStore) : LeafRun :=
  match parameter params (.literal "key") with
  | none => ⟨.ok, .failure, store, []⟩
  | some text =>
      match hostResolve store text with
      | .error status => ⟨status, .idle, store, []⟩
      | .ok key =>
          match variableText params store with
          | .error status => ⟨status, .idle, store, []⟩
          | .ok none => ⟨.ok, .failure, store, []⟩
          | .ok (some value) =>
              match store.set (some key) (some value) with
              | (next, .ok) => ⟨.ok, .success, next, [⟨.variable, key, value.bytes⟩]⟩
              | (next, _) => ⟨.enobufs, .idle, next, []⟩

/-! ## Sessions -/

/-- `tick_leaf` of the session.  The native host refuses repeated parameters first, and
declines a Shell. -/
def tickLeaf (parse : CString → Option Int) (leaf : PlanNode) (scope : ValueStore)
    (process : ProcessRun) (schedule : AllocSchedule) : Option LeafRun :=
  if ¬ (leaf.params.map Prod.fst).Nodup then some ⟨.einval, .idle, scope, []⟩
  else
    match leaf.action with
    | .shell => some (tickProcess parse leaf.params scope process schedule)
    | .setVariable => some (tickSetVariable leaf.params scope)
    | _ => none

/-- A session of a plan from its first tick to its end, without a cancellation.  There is
no result for plans that `make_plan` does not make. -/
def runSession (parse : CString → Option Int) (plan : SessionPlan) (scope : ValueStore)
    (process : ProcessRun) (schedule : AllocSchedule) : Option LeafRun :=
  match plan.nodes with
  | [leaf] => tickLeaf parse leaf scope process schedule
  | [⟨.sequence, _, _, _, _⟩, leaf] => tickLeaf parse leaf scope process schedule
  | _ => none

/-! ## What a leaf leaves behind -/

/-- What a text stands for in a scope. -/
def resolved (store : ValueStore) (text : CString) : Option CString :=
  match reference text with
  | none => some text
  | some key => store.findEntry key

/-- What a parameter stands for in a scope. -/
def portText (params : LeafParams) (store : ValueStore) (name : CString)
    (fallback : Option CString) : Option CString :=
  match parameter params name with
  | none => fallback
  | some text => resolved store text

theorem findEntry_of_get {store : ValueStore} {key text : CString} {capacity size : Option Nat}
    (hget : store.get (some key) capacity = (.ok, size, some text)) :
    store.findEntry key = some text := by
  rw [ValueStore.get] at hget
  split at hget
  · split at hget
    · simp at hget
    rename_i value hfound
    split at hget
    · simp at hget
    split at hget
    · simp at hget
    · obtain ⟨_, rfl⟩ : some value.length = size ∧ value = text := by simpa using hget
      exact hfound
  · simp at hget

theorem sessionGet_ok {store : ValueStore} {key text : CString} {schedule rest : AllocSchedule}
    (hget : sessionGet store key schedule = (.ok text, rest)) :
    store.findEntry key = some text := by
  rw [sessionGet] at hget
  split at hget
  · simp at hget
  · split_ifs at hget
    · simp at hget
    split at hget
    · simp at hget
    split at hget
    · rename_i hread
      split_ifs at hget
      · obtain ⟨rfl, _⟩ := by simpa using hget
        exact findEntry_of_get hread
      · simp at hget
    · simp at hget
  · simp at hget

theorem sessionResolve_ok {params : LeafParams} {store : ValueStore} {name text : CString}
    {fallback : Option CString} {schedule rest : AllocSchedule}
    (hresolve : sessionResolve params store name fallback schedule = (.ok text, rest)) :
    portText params store name fallback = some text := by
  rw [sessionResolve.eq_def] at hresolve
  rw [portText]
  cases hparameter : parameter params name with
  | none =>
      simp only [hparameter] at hresolve ⊢
      cases fallback with
      | none => simp at hresolve
      | some default =>
          simp only at hresolve
          split_ifs at hresolve
          · simp at hresolve
          · exact congrArg some (Except.ok.inj (Prod.mk.inj hresolve).1)
  | some given =>
      simp only [hparameter] at hresolve ⊢
      split_ifs at hresolve
      · simp at hresolve
      rw [resolved]
      cases hreference : reference given with
      | none =>
          simp only [hreference] at hresolve ⊢
          exact congrArg some (Except.ok.inj (Prod.mk.inj hresolve).1)
      | some key =>
          simp only [hreference] at hresolve ⊢
          split at hresolve
          · simp at hresolve
          · exact sessionGet_ok hresolve

/-- A full cache holds what the parameters stand for. -/
theorem cacheParameters_full {params : LeafParams} {store : ValueStore}
    (table : List (CString × Option CString)) (cached : List CString) (used : Nat)
    (schedule : AllocSchedule) {all : List CString} {rest : AllocSchedule}
    (hcache : cacheParameters params store table cached used schedule = (all, true, rest)) :
    ∃ texts, all = cached ++ texts ∧
      List.Forall₂ (fun entry text => portText params store entry.1 entry.2 = some text)
        table texts := by
  induction table generalizing cached used schedule with
  | nil =>
      obtain ⟨rfl, _⟩ : cached = all ∧ schedule = rest := by
        simpa [cacheParameters] using hcache
      exact ⟨[], by simp, .nil⟩
  | cons entry table ih =>
      obtain ⟨name, fallback⟩ := entry
      rw [cacheParameters] at hcache
      split at hcache
      · simp at hcache
      rename_i text _ hresolve
      split at hcache
      · simp at hcache
      obtain ⟨texts, rfl, hrest⟩ := ih _ _ _ hcache
      exact ⟨text :: texts, by simp, .cons (sessionResolve_ok hresolve) hrest⟩

/-- The keys under which a Shell writes its output, its errors and its exit code. -/
def ShellKeys (params : LeafParams) (store : ValueStore) (output errors exitCode : CString) :
    Prop :=
  portText params store (.literal "output_key") (some (.literal "shell_output")) = some output ∧
    portText params store (.literal "stderr_key") (some (.literal "shell_stderr")) = some errors ∧
    portText params store (.literal "exit_code_key") (some (.literal "shell_exit_code")) =
      some exitCode

/-- A process that was started has its keys cached. -/
theorem startProcess_started {parse : CString → Option Int} {params : LeafParams}
    {store : ValueStore} {process : ProcessRun} {schedule : AllocSchedule} {cached : List CString}
    (hstart : startProcess parse params store process schedule = (cached, true)) :
    ∃ command input directory output errors exitCode,
      cached = [command, input, directory, output, errors, exitCode] ∧
        ShellKeys params store output errors exitCode := by
  rw [startProcess] at hstart
  split_ifs at hstart
  · simp at hstart
  split at hstart
  · simp at hstart
  rename_i all _ hcache
  obtain rfl : all = cached := by
    split_ifs at hstart
    · simp at hstart
    split at hstart
    · simp at hstart
    split at hstart
    · exact (Prod.mk.inj hstart).1
    · simp at hstart
  obtain ⟨texts, rfl, htexts⟩ := cacheParameters_full _ _ _ _ hcache
  rw [shellParameters] at htexts
  obtain _ | ⟨_, _ | ⟨_, _ | ⟨_, _ | ⟨houtput, _ | ⟨herrors, _ | ⟨hexit, ⟨⟩⟩⟩⟩⟩⟩⟩ := htexts
  exact ⟨_, _, _, _, _, _, rfl, houtput, herrors, hexit⟩

/-- A write that succeeded. -/
theorem sessionSet_ok {store next : ValueStore} {key : CString} {value : Bytes}
    (hset : sessionSet store key value = (next, .ok)) :
    ∃ text, text.bytes = value ∧ next.limits = store.limits ∧ store.limits.fitsKey key ∧
      store.limits.fitsValue text ∧
      next.findEntry = Function.update store.findEntry key (some text) := by
  rw [sessionSet] at hset
  split_ifs at hset
  · simp at hset
  split at hset
  · simp at hset
  rename_i text htext
  have hspec := store.set_spec (some key) (some text)
  split at hset
  · rename_i found hfound
    rw [hfound] at hspec
    obtain rfl : found = next := (Prod.mk.inj hset).1
    obtain ⟨newKey, newValue, hkey, hvalue, hfitsKey, hfitsValue, hentry⟩ := hspec.updated rfl
    obtain rfl := Option.some.inj hkey
    obtain rfl := Option.some.inj hvalue
    refine ⟨text, ?_, hspec.limits_eq, hfitsKey, hfitsValue, hentry⟩
    rw [CString.ofBytes] at htext
    split_ifs at htext
    rw [← Option.some.inj htext]
  · simp at hset

/-- Writes to different keys are all found afterwards. -/
theorem writeAll_ok {writes done : List LeafWrite} {store next : ValueStore}
    (hwrite : writeAll store writes = (next, .ok, done)) :
    done = writes ∧ next.limits = store.limits ∧
      (∀ key, key ∉ writes.map LeafWrite.key → next.findEntry key = store.findEntry key) ∧
      ((writes.map LeafWrite.key).Nodup → ∀ write ∈ writes, ∃ text, text.bytes = write.value ∧
        store.limits.fitsKey write.key ∧ store.limits.fitsValue text ∧
        next.findEntry write.key = some text) := by
  induction writes generalizing store done with
  | nil =>
      obtain ⟨rfl, rfl⟩ : store = next ∧ done = [] := by simpa [writeAll, eq_comm] using hwrite
      simp
  | cons write rest ih =>
      rw [writeAll] at hwrite
      split at hwrite
      · rename_i between hset
        split at hwrite
        rename_i last status later hrest
        obtain ⟨rfl, rfl, rfl⟩ : last = next ∧ status = .ok ∧ write :: later = done := by
          simpa using hwrite
        obtain ⟨rfl, hlimits, hothers, hfound⟩ := ih hrest
        obtain ⟨text, htext, hkept, hfitsKey, hfitsValue, hentry⟩ := sessionSet_ok hset
        refine ⟨rfl, hlimits.trans hkept, fun key hkey => ?_, fun hnodup found hmem => ?_⟩
        · rw [List.map_cons, List.mem_cons, not_or] at hkey
          rw [hothers key hkey.2, hentry, Function.update_of_ne hkey.1]
        · rw [List.map_cons, List.nodup_cons] at hnodup
          rcases List.mem_cons.mp hmem with rfl | hmem
          · refine ⟨text, htext, hfitsKey, hfitsValue, ?_⟩
            rw [hothers _ hnodup.1, hentry, Function.update_self]
          · rw [← hkept]
            exact hfound hnodup.2 found hmem
      · rename_i status hne hset
        obtain ⟨_, rfl, _⟩ := by simpa using hwrite
        exact absurd rfl hne

/-- A Shell that passed wrote under its three keys. -/
theorem tickProcess_passed {parse : CString → Option Int} {params : LeafParams}
    {store : ValueStore} {process : ProcessRun} {schedule : AllocSchedule} {result : LeafRun}
    (hrun : tickProcess parse params store process schedule = result) (hpassed : result.Passed) :
    ∃ output errors exitCode, ShellKeys params store output errors exitCode ∧
      ∃ code, writeAll store [⟨.output, output, process.stdout⟩, ⟨.errors, errors, process.stderr⟩,
        ⟨.exitCode, exitCode, code⟩] = (result.scope, .ok, result.writes) := by
  rw [tickProcess] at hrun
  split at hrun
  · split at hrun
    subst hrun
    simp [LeafRun.Passed] at hpassed
  rename_i cached hstart
  split at hrun
  · subst hrun
    simp [LeafRun.Passed] at hpassed
  obtain ⟨_, _, _, output, errors, exitCode, rfl, hkeys⟩ := startProcess_started hstart
  rcases hwrites : writeAll store (processWrites _ process.code process.passed process) with
    ⟨scope, status, writes⟩
  rw [hwrites] at hrun
  subst hrun
  obtain ⟨hsuccess, rfl⟩ : process.passed = true ∧ status = Salts.ok := by
    simpa [LeafRun.Passed] using hpassed
  refine ⟨output, errors, exitCode, hkeys, ascii (toString process.code), ?_⟩
  simpa [processWrites, hsuccess] using hwrites

theorem hostResolve_ok {store : ValueStore} {text value : CString}
    (hresolve : hostResolve store text = .ok value) : resolved store text = some value := by
  rw [hostResolve] at hresolve
  rw [resolved]
  split at hresolve
  · rename_i key hreference
    rw [hreference]
    split_ifs at hresolve
    split at hresolve
    · rename_i found hget
      obtain rfl : found = value := by simpa using hresolve
      exact findEntry_of_get hget
    · simp at hresolve
  · rename_i hreference
    rw [hreference]
    split_ifs at hresolve
    exact congrArg some (Except.ok.inj hresolve)

/-- A SetVariable that passed wrote what its key stands for. -/
theorem tickSetVariable_passed {params : LeafParams} {store : ValueStore} {result : LeafRun}
    (hrun : tickSetVariable params store = result) (hpassed : result.Passed) :
    ∃ text key value, parameter params (.literal "key") = some text ∧
      resolved store text = some key ∧ store.limits.fitsKey key ∧ store.limits.fitsValue value ∧
      result.writes = [⟨.variable, key, value.bytes⟩] ∧
      result.scope.findEntry = Function.update store.findEntry key (some value) := by
  rw [tickSetVariable] at hrun
  split at hrun
  · simp [← hrun, LeafRun.Passed] at hpassed
  rename_i text hparameter
  split at hrun
  · simp [← hrun, LeafRun.Passed] at hpassed
  rename_i key hkey
  split at hrun
  · simp [← hrun, LeafRun.Passed] at hpassed
  · simp [← hrun, LeafRun.Passed] at hpassed
  rename_i value hvalue
  have hspec := store.set_spec (some key) (some value)
  split at hrun
  · rename_i next hset
    rw [hset] at hspec
    subst hrun
    obtain ⟨_, _, ⟨rfl⟩, ⟨rfl⟩, hfitsKey, hfitsValue, hentry⟩ := hspec.updated rfl
    exact ⟨text, key, value, hparameter, hostResolve_ok hkey, hfitsKey, hfitsValue, rfl, hentry⟩
  · simp [← hrun, LeafRun.Passed] at hpassed

end Praktor.Runtime
