/-
# What the ports of a leaf are

The text of a port depends on its parameter and on the values stored, and resolving it
writes two buffers of the host and nothing else.  The rules below take a computation of
the host apart, one step at a time.
-/

import Praktor.Native.Leaves
import Praktor.Values.StoreRefinement

namespace Praktor.Native

open Praktor.Data Praktor.Values Praktor.Output
open Praktor.Runtime (NodeStatus reference)

variable {Number Regex α β : Type}

/-- A computation on a host. -/
def LeafM.on (action : LeafM Regex α) (host : NativeHost Regex) :
    Except Salts α × NativeHost Regex :=
  StateT.run (ExceptT.run action) host

/-! ## Rules -/

section Rules

variable (host : NativeHost Regex)

theorem on_bind (first : LeafM Regex α) (second : α → LeafM Regex β) :
    LeafM.on (first >>= second) host =
      match LeafM.on first host with
      | (.ok value, next) => LeafM.on (second value) next
      | (.error code, next) => (.error code, next) := by
  unfold LeafM.on
  rw [ExceptT.run_bind, StateT.run_bind]
  rcases StateT.run (ExceptT.run first) host with ⟨result, next⟩
  cases result with
  | ok value => rfl
  | error code => rfl

@[simp]
theorem on_pure (value : α) : LeafM.on (pure value : LeafM Regex α) host = (.ok value, host) := rfl

@[simp]
theorem on_throw (code : Salts) :
    LeafM.on (throw code : LeafM Regex α) host = (.error code, host) := rfl

@[simp]
theorem on_get : LeafM.on (get : LeafM Regex (NativeHost Regex)) host = (.ok host, host) := rfl

@[simp]
theorem on_set (next : NativeHost Regex) :
    LeafM.on (set next : LeafM Regex PUnit) host = (.ok ⟨⟩, next) := rfl

@[simp]
theorem on_read (buffer : Fin 5) :
    LeafM.on (read buffer : LeafM Regex CString) host = (.ok (host.scratch buffer), host) := rfl

@[simp]
theorem on_write (buffer : Fin 5) (text : CString) :
    LeafM.on (write buffer text : LeafM Regex Unit) host =
      (.ok (), { host with scratch := Function.update host.scratch buffer text }) := rfl

theorem on_tryCatch (action : LeafM Regex α) (handler : Salts → LeafM Regex α) :
    LeafM.on (tryCatch action handler) host =
      match LeafM.on action host with
      | (.ok value, next) => (.ok value, next)
      | (.error code, next) => LeafM.on (handler code) next := by
  change StateT.run (ExceptT.run (ExceptT.tryCatch action handler)) host = _
  unfold LeafM.on ExceptT.tryCatch
  rw [ExceptT.run_mk, StateT.run_bind]
  have hrun : StateT.run action host = StateT.run (ExceptT.run action) host := rfl
  rw [hrun]
  rcases StateT.run (ExceptT.run action) host with ⟨result, next⟩
  cases result with
  | ok value => rfl
  | error code => rfl

end Rules

/-! ## Texts -/

/-- `copy_text` into a buffer of a size. -/
def copied (capacity : Nat) (text : CString) : Except Salts CString :=
  if text.length ≥ capacity then .error .enobufs else .ok text

/-- The text of a parameter: what `resolve` puts into its buffer. -/
def paramText (env : Environment Number Regex) (values : ValueStore) (capacity : Nat) :
    LeafValue Number → Except Salts CString
  | .boolean value => copied capacity (CString.literal (if value then "true" else "false"))
  | .number value => if env.isfinite value then copied capacity (env.format value) else .error .einval
  | .string none => .error .einval
  | .string (some text) =>
      match reference text with
      | none => copied capacity text
      | some key =>
          if key.length ≥ capacity then .error .enobufs
          else
            match values.get (some key) (some capacity) with
            | (.ok, _, some value) => .ok value
            | _ => .error .einval

/-- The text of a port. -/
def portText (env : Environment Number Regex) (host : NativeHost Regex) (request : LeafRequest Number)
    (name fallback : String) : Except Salts CString :=
  match parameter request name with
  | none => copied host.scratchCapacity (CString.literal fallback)
  | some param => paramText env host.values host.scratchCapacity param

/-- A host whose scratch buffers may have changed. -/
def NativeHost.Scratched (host next : NativeHost Regex) : Prop :=
  ∃ scratch, next = { host with scratch }

theorem NativeHost.Scratched.refl (host : NativeHost Regex) : host.Scratched host :=
  ⟨host.scratch, rfl⟩

/-- A text was put into the buffer `out` by way of the buffer `keyScratch`, or there was no
text.  The other buffers keep theirs. -/
structure Resolved (host : NativeHost Regex) (text : Except Salts CString) (out keyScratch : Fin 5)
    (result : Except Salts Unit × NativeHost Regex) : Prop where
  result_eq : result.1 = text.map fun _ => ()
  scratched : host.Scratched result.2
  out_eq : ∀ value, text = .ok value → result.2.scratch out = value
  others : ∀ buffer, buffer ≠ out → buffer ≠ keyScratch → result.2.scratch buffer = host.scratch buffer

theorem Resolved.refused (host : NativeHost Regex) (code : Salts) (out keyScratch : Fin 5) :
    Resolved host (.error code) out keyScratch (.error code, host) :=
  ⟨rfl, .refl host, nofun, fun _ _ _ => rfl⟩

section Resolving

variable (env : Environment Number Regex) (host : NativeHost Regex)

theorem copyText_on (text : CString) (out keyScratch : Fin 5) :
    Resolved host (copied host.scratchCapacity text) out keyScratch
      (LeafM.on (copyText out text) host) := by
  unfold copyText copied
  rw [on_bind, on_get]
  dsimp only
  by_cases hlong : text.length ≥ host.scratchCapacity
  · rw [if_pos hlong, if_pos hlong]
    exact ⟨rfl, .refl host, nofun, fun _ _ _ => rfl⟩
  · rw [if_neg hlong, if_neg hlong]
    refine ⟨rfl, ⟨_, rfl⟩, fun value hvalue => ?_, fun buffer hbuffer _ => ?_⟩
    · obtain rfl := Except.ok.inj hvalue
      exact Function.update_self ..
    · exact Function.update_of_ne hbuffer ..

/-- What `resolve` does. -/
theorem resolve_on (param : LeafValue Number) (out keyScratch : Fin 5) :
    Resolved host (paramText env host.values host.scratchCapacity param) out keyScratch
      (LeafM.on (resolve env param out keyScratch) host) := by
  cases param with
  | boolean value => exact copyText_on host _ out keyScratch
  | number value =>
      unfold resolve paramText
      dsimp only
      by_cases hfinite : env.isfinite value = true
      · simp only [hfinite, Bool.not_true, Bool.false_eq_true, if_false, if_true]
        exact copyText_on host _ out keyScratch
      · simp only [hfinite, Bool.not_false, if_true, Bool.false_eq_true, if_false]
        exact .refused host _ out keyScratch
  | string text =>
      cases text with
      | none => exact .refused host _ out keyScratch
      | some text =>
          unfold resolve paramText
          dsimp only
          cases reference text with
          | none => exact copyText_on host text out keyScratch
          | some key =>
              dsimp only
              rw [on_bind, on_get]
              dsimp only
              by_cases hlong : key.length ≥ host.scratchCapacity
              · rw [if_pos hlong, if_pos hlong]
                exact .refused host _ out keyScratch
              · rw [if_neg hlong, if_neg hlong]
                simp only [on_bind, on_write, on_get]
                have hother : ∀ buffer, buffer ≠ out → buffer ≠ keyScratch →
                    Function.update host.scratch keyScratch key buffer = host.scratch buffer :=
                  fun _ _ hbuffer => Function.update_of_ne hbuffer ..
                obtain ⟨status, size, stored⟩ := host.values.get (some key) (some host.scratchCapacity)
                cases status with
                | ok =>
                    cases stored with
                    | none => exact ⟨rfl, ⟨_, rfl⟩, fun _ herror => (by cases herror), hother⟩
                    | some value =>
                        refine ⟨rfl, ⟨_, rfl⟩, fun text htext => ?_, fun buffer hout hkey => ?_⟩
                        · obtain rfl := Except.ok.inj htext
                          exact Function.update_self ..
                        · exact (Function.update_of_ne hout ..).trans (hother buffer hout hkey)
                | _ => exact ⟨rfl, ⟨_, rfl⟩, fun _ herror => (by cases herror), hother⟩

/-- What `port` does. -/
theorem port_on (request : LeafRequest Number) (name fallback : String) (out keyScratch : Fin 5) :
    Resolved host (portText env host request name fallback) out keyScratch
      (LeafM.on (port env request name fallback out keyScratch) host) := by
  unfold port portText
  cases parameter request name with
  | none => exact copyText_on host _ out keyScratch
  | some param => exact resolve_on env host param out keyScratch

end Resolving

/-! ## Integers and expressions -/

/-- The integer of a parameter: what `resolve_integer` returns. -/
def integerOf (env : Environment Number Regex) (values : ValueStore) (capacity : Nat)
    (param : Option (LeafValue Number)) (defaultValue : Int) : Except Salts Int :=
  match param with
  | none => .ok defaultValue
  | some (.boolean _) => .error .einval
  | some (.number value) =>
      match env.toInt value with
      | some value => .ok value
      | none => .error .einval
  | some (.string text) =>
      match paramText env values capacity (.string text) with
      | .ok text => parseInteger env text
      | .error code => .error code

/-- The nanoseconds of a number of milliseconds. -/
def nanoseconds (env : Environment Number Regex) (value : Number) : Except Salts Nat :=
  match env.milliseconds value with
  | none => .error .einval
  | some duration => .ok (duration * 1000000)

/-- The duration of a Sleep: what `sleep_duration` returns. -/
def durationOf (env : Environment Number Regex) (values : ValueStore) (capacity : Nat) :
    Option (LeafValue Number) → Except Salts Nat
  | none => nanoseconds env (env.multiply env.zero 1)
  | some (.number value) => nanoseconds env (env.multiply value 1)
  | some (.string text) =>
      match paramText env values capacity (.string text) with
      | .error code => .error code
      | .ok text =>
          match env.strtod text with
          | none => .error .einval
          | some (value, unit) =>
              match unitFactor unit with
              | none => .error .einval
              | some factor => nanoseconds env (env.multiply value factor)
  | some (.boolean _) => .error .einval

/-- The expression of a pattern: the one in the cache, else a new one if there is room. -/
def compiledRegex (env : Environment Number Regex) (host : NativeHost Regex) (pattern : CString) :
    Except RegexStatus Regex :=
  match host.regexCache.findSome? fun place => place.filter fun entry => entry.pattern = pattern with
  | some entry => entry.compiled
  | none =>
      if host.regexCache.all Option.isSome || pattern.length ≥ host.scratchCapacity then .error .limit
      else env.compile pattern

section Integers

variable (env : Environment Number Regex) (host : NativeHost Regex)

theorem resolveInteger_on (param : Option (LeafValue Number)) (defaultValue : Int)
    (scratch : Fin 5) : ∃ next, host.Scratched next ∧
      (∀ buffer, buffer ≠ scratch → buffer ≠ scratch + 1 → next.scratch buffer = host.scratch buffer) ∧
      LeafM.on (resolveInteger env param defaultValue scratch) host =
        (integerOf env host.values host.scratchCapacity param defaultValue, next) := by
  unfold resolveInteger integerOf
  cases param with
  | none => exact ⟨host, .refl host, fun _ _ _ => rfl, rfl⟩
  | some param =>
      cases param with
      | boolean value => exact ⟨host, .refl host, fun _ _ _ => rfl, rfl⟩
      | number value =>
          refine ⟨host, .refl host, fun _ _ _ => rfl, ?_⟩
          dsimp only
          cases env.toInt value with
          | none => rfl
          | some value => rfl
      | string text =>
          have hspec := resolve_on env host (.string text) scratch (scratch + 1)
          dsimp only
          rw [on_bind]
          generalize LeafM.on (resolve env (.string text) scratch (scratch + 1)) host = ran at hspec
          obtain ⟨result, next⟩ := ran
          obtain ⟨hresult, hscratched, hout, hothers⟩ := hspec
          dsimp only at hresult hscratched hout hothers
          subst hresult
          refine ⟨next, hscratched, hothers, ?_⟩
          cases htext : paramText env host.values host.scratchCapacity (.string text) with
          | error code => rfl
          | ok value =>
              have hread := hout value htext
              dsimp only [Except.map]
              rw [on_bind, on_read, hread]
              dsimp only
              cases parseInteger env value with
              | error code => rfl
              | ok value => rfl

theorem sleepDuration_on (param : Option (LeafValue Number)) : ∃ next, host.Scratched next ∧
    LeafM.on (sleepDuration env param) host =
      (durationOf env host.values host.scratchCapacity param, next) := by
  have hlast : ∀ (value : Number) (next : NativeHost Regex),
      LeafM.on (match env.milliseconds value with
        | none => throw Salts.einval
        | some duration => return duration * 1000000 : LeafM Regex Nat) next =
        (nanoseconds env value, next) := by
    intro value next
    unfold nanoseconds
    cases env.milliseconds value with
    | none => rfl
    | some duration => rfl
  unfold sleepDuration durationOf
  rw [on_bind]
  unfold durationValue
  cases param with
  | none => exact ⟨host, .refl host, hlast _ host⟩
  | some param =>
      cases param with
      | boolean value => exact ⟨host, .refl host, rfl⟩
      | number value => exact ⟨host, .refl host, hlast _ host⟩
      | string text =>
          have hspec := resolve_on env host (.string text) 0 1
          dsimp only
          rw [on_bind]
          generalize LeafM.on (resolve env (.string text) 0 1) host = ran at hspec
          obtain ⟨result, next⟩ := ran
          obtain ⟨hresult, hscratched, hout, -⟩ := hspec
          dsimp only at hresult hscratched hout
          subst hresult
          refine ⟨next, hscratched, ?_⟩
          cases htext : paramText env host.values host.scratchCapacity (.string text) with
          | error code => rfl
          | ok value =>
              dsimp only [Except.map]
              rw [on_bind, on_read, hout value htext]
              dsimp only
              rcases env.strtod value with _ | ⟨number, unit⟩
              · rfl
              · dsimp only
                cases unitFactor unit with
                | none => rfl
                | some factor => exact hlast _ next

theorem cachedRegex_on (pattern : CString) : ∃ cache,
    LeafM.on (cachedRegex env pattern) host =
      (.ok (compiledRegex env host pattern), { host with regexCache := cache }) := by
  unfold cachedRegex compiledRegex
  rw [on_bind, on_get]
  dsimp only
  cases host.regexCache.findSome? fun place => place.filter fun entry => entry.pattern = pattern with
  | some entry => exact ⟨host.regexCache, rfl⟩
  | none =>
      dsimp only
      cases hfree : host.regexCache.findIdx? Option.isNone with
      | none =>
          have hall : host.regexCache.all Option.isSome = true := by
            rw [List.findIdx?_eq_none_iff] at hfree
            rw [List.all_eq_true]
            intro place hplace
            simpa using hfree place hplace
          rw [hall, Bool.true_or, if_pos rfl]
          exact ⟨host.regexCache, rfl⟩
      | some available =>
          have hsome : host.regexCache.all Option.isSome = false := by
            rw [← Bool.not_eq_true, List.all_eq_true]
            intro hall
            have hany : host.regexCache.any Option.isNone = true := by
              rw [← List.findIdx?_isSome, hfree]
              rfl
            obtain ⟨place, hplace, hnone⟩ := List.any_eq_true.mp hany
            have hoccupied := hall place hplace
            simp [Option.isNone_iff_eq_none.mp hnone] at hoccupied
          rw [hsome, Bool.false_or]
          dsimp only
          by_cases hlong : pattern.length ≥ host.scratchCapacity
          · rw [if_pos hlong, if_pos (decide_eq_true hlong)]
            exact ⟨host.regexCache, rfl⟩
          · rw [if_neg hlong, if_neg (by simpa using hlong)]
            exact ⟨_, rfl⟩

end Integers

/-! ## What a leaf leaves in the store -/

/-- Another moment of the same call: nothing has been published yet. -/
structure NativeHost.Alike (host current : NativeHost Regex) : Prop where
  values_eq : current.values = host.values
  scratchCapacity_eq : current.scratchCapacity = host.scratchCapacity
  pairCapacity_eq : current.pairCapacity = host.pairCapacity
  regexCache_eq : current.regexCache = host.regexCache

theorem NativeHost.Alike.refl (host : NativeHost Regex) : host.Alike host := ⟨rfl, rfl, rfl, rfl⟩

theorem NativeHost.Alike.scratched {host current next : NativeHost Regex}
    (halike : host.Alike current) (hscratched : current.Scratched next) : host.Alike next := by
  obtain ⟨scratch, rfl⟩ := hscratched
  exact ⟨halike.values_eq, halike.scratchCapacity_eq, halike.pairCapacity_eq, halike.regexCache_eq⟩

/-- A leaf either succeeds after its writes were made, or it leaves the store as it was. -/
inductive Outcome (host : NativeHost Regex) (admitted : List (CString × CString) → Prop)
    (result : Except Salts NodeStatus × NativeHost Regex) : Prop
  | quiet (hreply : result.1 ≠ .ok .success) (hvalues : result.2.values = host.values)
  | published (writes : List (CString × CString)) (hwrites : admitted writes)
      (hreply : result.1 = .ok .success)
      (hvalues : result.2.values.findEntry = MapStore.bindAll host.values.findEntry writes)

namespace Outcome

variable {host current : NativeHost Regex} {admitted : List (CString × CString) → Prop}

theorem error (halike : host.Alike current) (code : Salts) :
    Outcome host admitted (.error code, current) :=
  .quiet nofun halike.values_eq

theorem failure (halike : host.Alike current) : Outcome host admitted (.ok .failure, current) :=
  .quiet nofun halike.values_eq

theorem mono {other : List (CString × CString) → Prop}
    {result : Except Salts NodeStatus × NativeHost Regex} (hresult : Outcome host admitted result)
    (hother : ∀ writes, admitted writes → other writes) : Outcome host other result := by
  cases hresult with
  | quiet hreply hkept => exact .quiet hreply hkept
  | published writes hwrites hreply hmap => exact .published writes (hother writes hwrites) hreply hmap

/-- The store is all that counts of the host a leaf started from. -/
theorem rebase {other : NativeHost Regex} {result : Except Salts NodeStatus × NativeHost Regex}
    (hvalues : other.values = host.values) (hresult : Outcome other admitted result) :
    Outcome host admitted result := by
  cases hresult with
  | quiet hreply hkept => exact .quiet hreply (hkept.trans hvalues)
  | published writes hwrites hreply hmap => exact .published writes hwrites hreply (hvalues ▸ hmap)

/-- Putting a text into a buffer first. -/
theorem resolved {action : LeafM Regex Unit} {rest : Unit → LeafM Regex NodeStatus}
    {text : Except Salts CString} {out keyScratch : Fin 5} (halike : host.Alike current)
    (hspec : Resolved current text out keyScratch (LeafM.on action current))
    (hrest : ∀ next, host.Alike next → text = .ok (next.scratch out) →
      (∀ buffer, buffer ≠ out → buffer ≠ keyScratch → next.scratch buffer = current.scratch buffer) →
      Outcome host admitted (LeafM.on (rest ()) next)) :
    Outcome host admitted (LeafM.on (action >>= rest) current) := by
  rw [on_bind]
  generalize LeafM.on action current = ran at hspec
  obtain ⟨result, next⟩ := ran
  obtain ⟨hresult, hscratched, hout, hothers⟩ := hspec
  dsimp only at hresult
  subst hresult
  cases text with
  | error code => exact .error (halike.scratched hscratched) code
  | ok text => exact hrest next (halike.scratched hscratched) (by rw [hout text rfl]) hothers

/-- Resolving a port first. -/
theorem port (env : Environment Number Regex) (request : LeafRequest Number) (name fallback : String)
    (out keyScratch : Fin 5) {rest : Unit → LeafM Regex NodeStatus} (halike : host.Alike current)
    (hrest : ∀ next, host.Alike next →
      portText env host request name fallback = .ok (next.scratch out) →
      (∀ buffer, buffer ≠ out → buffer ≠ keyScratch → next.scratch buffer = current.scratch buffer) →
      Outcome host admitted (LeafM.on (rest ()) next)) :
    Outcome host admitted
      (LeafM.on (Native.port env request name fallback out keyScratch >>= rest) current) := by
  have htext : portText env current request name fallback = portText env host request name fallback := by
    rw [portText, portText, halike.values_eq, halike.scratchCapacity_eq]
  exact resolved halike (htext ▸ port_on env current request name fallback out keyScratch) hrest

/-- Resolving a parameter that is there first. -/
theorem resolve (env : Environment Number Regex) (param : LeafValue Number) (out keyScratch : Fin 5)
    {rest : Unit → LeafM Regex NodeStatus} (halike : host.Alike current)
    (hrest : ∀ next, host.Alike next →
      paramText env host.values host.scratchCapacity param = .ok (next.scratch out) →
      (∀ buffer, buffer ≠ out → buffer ≠ keyScratch → next.scratch buffer = current.scratch buffer) →
      Outcome host admitted (LeafM.on (rest ()) next)) :
    Outcome host admitted (LeafM.on (Native.resolve env param out keyScratch >>= rest) current) := by
  have hspec := resolve_on env current param out keyScratch
  rw [halike.values_eq, halike.scratchCapacity_eq] at hspec
  exact resolved halike hspec hrest

/-- Writing a buffer first. -/
theorem write (buffer : Fin 5) (text : CString) {rest : Unit → LeafM Regex NodeStatus}
    (halike : host.Alike current)
    (hrest : ∀ next, host.Alike next → next.scratch buffer = text →
      (∀ other, other ≠ buffer → next.scratch other = current.scratch other) →
      Outcome host admitted (LeafM.on (rest ()) next)) :
    Outcome host admitted (LeafM.on (Native.write buffer text >>= rest) current) := by
  rw [on_bind, on_write]
  exact hrest _ (halike.scratched ⟨_, rfl⟩) (Function.update_self ..)
    fun _ hother => Function.update_of_ne hother ..

/-- Publishing at the end. -/
theorem publish (refusal : ValueStatus → Salts) {key value : CString} (halike : host.Alike current)
    (hadmitted : admitted [(key, value)]) :
    Outcome host admitted (LeafM.on (Native.publish refusal key value) current) := by
  have hspec := ValueStore.set_spec current.values (some key) (some value)
  unfold Native.publish
  rw [on_bind, on_get]
  dsimp only
  generalize current.values.set (some key) (some value) = written at hspec
  obtain ⟨values, status⟩ := written
  cases status with
  | ok =>
      obtain ⟨newKey, newValue, hkey, hvalue, -, -, hmap⟩ := hspec.updated rfl
      obtain rfl := Option.some.inj hkey
      obtain rfl := Option.some.inj hvalue
      refine .published _ hadmitted rfl ?_
      change values.findEntry = _
      rw [hmap, halike.values_eq]
      rfl
  | _ => exact .error halike _

end Outcome

end Praktor.Native
