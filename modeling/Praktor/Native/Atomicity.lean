/-
# Atomic leaves

What a leaf publishes is a function of the store it started from: its ports, the text
under its input key, and the packages of the host.  A leaf that does not succeed
publishes nothing.
-/

import Praktor.Native.LineCompaction
import Praktor.Native.Ports

namespace Praktor.Native

open Praktor.Data Praktor.Values Praktor.Output
open Praktor.Runtime (NodeStatus)

variable {Number Regex : Type}

/-- The value of a `SetVariable`: its own, or the one of another key. -/
inductive VariableValue (env : Environment Number Regex) (host : NativeHost Regex)
    (request : LeafRequest Number) : CString → Prop
  | direct {param : LeafValue Number} {value : CString}
      (hparam : parameter request "value" = some param)
      (hvalue : paramText env host.values host.scratchCapacity param = .ok value) :
      VariableValue env host request value
  | copy {param : LeafValue Number} {source value : CString}
      (hnone : parameter request "value" = none) (hparam : parameter request "from" = some param)
      (hsource : paramText env host.values host.scratchCapacity param = .ok source)
      (hstored : host.values.findEntry source = some value) :
      VariableValue env host request value

/-- What a `ParseLines` publishes: the kept lines of its input and their number. -/
inductive LineWrites (env : Environment Number Regex) (host : NativeHost Regex)
    (request : LeafRequest Number) : List (CString × CString) → Prop
  | mk {inputKey input outputKey joined : CString} {search : Option (Bytes → RegexStatus)}
      (hfilter : (LeafM.on (lineFilter env request) host).1 = .ok search)
      (hinput : portText env host request "input_key" "shell_output" = .ok inputKey)
      (hstored : host.values.findEntry inputKey = some input)
      (houtput : portText env host request "output_key" "parsed_lines" = .ok outputKey)
      (hjoined : joined.bytes = joinLines (keptLines search input.bytes)) :
      LineWrites env host request [(outputKey, joined),
        (outputKey.append (CString.literal "_count"),
          decimal (keptLines search input.bytes).length)]

/-- What a leaf publishes when it succeeds, read off the host it started from. -/
inductive LeafWrites (env : Environment Number Regex) (host : NativeHost Regex)
    (request : LeafRequest Number) : List (CString × CString) → Prop
  | nothing (haction : request.action.bytes = ascii "Sleep" ∨
      request.action.bytes = ascii "CheckExitCode") : LeafWrites env host request []
  | setVariable {param : LeafValue Number} {key value : CString}
      (haction : request.action.bytes = ascii "SetVariable")
      (hparam : parameter request "key" = some param)
      (hkey : paramText env host.values host.scratchCapacity param = .ok key)
      (hvalue : VariableValue env host request value) : LeafWrites env host request [(key, value)]
  | parseJson {inputKey input path selector outputKey value : CString} {document selected : Json}
      (haction : request.action.bytes = ascii "ParseJson")
      (hinput : portText env host request "input_key" "shell_output" = .ok inputKey)
      (hstored : host.values.findEntry inputKey = some input)
      (hpath : portText env host request "path" "" = .ok path)
      (hselector : jsonPath host.scratchCapacity path = .ok selector)
      (houtput : portText env host request "output_key" "parsed_output" = .ok outputKey)
      (hdocument : env.parse input.bytes = some document)
      (hselected : env.pathGet document selector = some selected)
      (hvalue : selectedText env selected = .ok value) :
      LeafWrites env host request [(outputKey, value)]
  | parseRegex {inputKey input pattern outputKey : CString} {regex : Regex} {group : Int}
      {found : RegexSpan} (haction : request.action.bytes = ascii "ParseRegex")
      (hinput : portText env host request "input_key" "shell_output" = .ok inputKey)
      (hstored : host.values.findEntry inputKey = some input)
      (hpattern : portText env host request "pattern" "" = .ok pattern)
      (hregex : compiledRegex env host pattern = .ok regex)
      (hgroup : integerOf env host.values host.scratchCapacity (parameter request "capture_group") 1 =
        .ok group) (hpositive : 0 < group) (hbound : group.toNat ≤ env.captureCount regex)
      (hfound : env.searchGroup regex input.bytes group.toNat = (.ok, found))
      (houtput : portText env host request "output_key" "parsed_output" = .ok outputKey) :
      LeafWrites env host request [(outputKey,
        if found.participated then (input.drop found.offset).take found.size
        else CString.literal "")]
  | parseLines {writes : List (CString × CString)}
      (haction : request.action.bytes = ascii "ParseLines")
      (hlines : LineWrites env host request writes) : LeafWrites env host request writes
  | parseKeyValue {inputKey input delimiter separator outputKey : CString} {output : Bytes}
      (haction : request.action.bytes = ascii "ParseKeyValue")
      (hinput : portText env host request "input_key" "shell_output" = .ok inputKey)
      (hstored : host.values.findEntry inputKey = some input)
      (hdelimiter : portText env host request "delimiter" "=" = .ok delimiter)
      (hseparator : portText env host request "line_separator" "\n" = .ok separator)
      (houtput : portText env host request "output_key" "parsed_output" = .ok outputKey)
      (hencoded : praktorOutputKeyValueJson input.bytes delimiter.bytes separator.bytes
        host.pairCapacity host.scratchCapacity = .ok output) :
      LeafWrites env host request [(outputKey, CString.ofBuffer output)]

section Leaves

variable {env : Environment Number Regex} {host current : NativeHost Regex}
  {request : LeafRequest Number} {admitted : List (CString × CString) → Prop}

/-- A text read from the store is the one stored. -/
theorem findEntry_of_get {values : ValueStore} {key value : CString} {capacity size : Option Nat}
    (hget : values.get (some key) capacity = (.ok, size, some value)) :
    values.findEntry key = some value := by
  unfold ValueStore.get at hget
  dsimp only at hget
  split at hget
  · split at hget
    · cases hget
    · next stored hstored =>
        split at hget
        · cases hget
        · split at hget
          · cases hget
          · cases hget
            exact hstored
  · cases hget

theorem tickSetVariable_outcome (haction : request.action.bytes = ascii "SetVariable") :
    Outcome host (LeafWrites env host request) (LeafM.on (tickSetVariable env request) host) := by
  unfold tickSetVariable
  cases hkeyParam : parameter request "key" with
  | none => exact .failure (.refl host)
  | some keyParam =>
      apply Outcome.resolve env keyParam 0 2 (.refl host)
      intro next hnext hkey _
      cases hvalueParam : parameter request "value" with
      | some valueParam =>
          apply Outcome.resolve env valueParam 1 2 hnext
          intro last hlast hvalue hothers
          rw [on_bind, on_read]
          dsimp only
          rw [on_bind, on_read]
          apply Outcome.publish _ hlast
          rw [hothers 0 (by decide) (by decide)]
          exact .setVariable haction hkeyParam hkey (.direct hvalueParam hvalue)
      | none =>
          cases hfromParam : parameter request "from" with
          | none => exact .failure hnext
          | some fromParam =>
              apply Outcome.resolve env fromParam 2 1 hnext
              intro last hlast hsource hothers
              rw [on_bind, on_get]
              dsimp only
              cases hcontains : last.values.contains (some (last.scratch 2)) with
              | error code => exact .error hlast _
              | ok present =>
                  cases present with
                  | false => exact .failure hlast
                  | true =>
                      rcases hget : last.values.get (some (last.scratch 2))
                        (some last.scratchCapacity) with ⟨status, size, stored⟩
                      cases status with
                      | ok =>
                          cases stored with
                          | none => exact .error hlast _
                          | some value =>
                              apply Outcome.write 1 value hlast
                              intro written hwritten hvalueRead hkept
                              simp only [on_bind, on_read]
                              apply Outcome.publish _ hwritten
                              rw [hvalueRead, hkept 0 (by decide), hothers 0 (by decide) (by decide)]
                              have hstored := findEntry_of_get hget
                              rw [hlast.values_eq] at hstored
                              exact .setVariable haction hkeyParam hkey
                                (.copy hvalueParam hfromParam hsource hstored)
                      | _ => exact .error hlast _

theorem tickParseJson_outcome (haction : request.action.bytes = ascii "ParseJson") :
    Outcome host (LeafWrites env host request) (LeafM.on (tickParseJson env request) host) := by
  unfold tickParseJson
  apply Outcome.port env request "input_key" "shell_output" 0 3 (.refl host)
  intro first hfirst hinput _
  rw [on_bind, on_get]
  dsimp only
  rcases hget : first.values.get (some (first.scratch 0)) (some first.scratchCapacity) with
    ⟨status, size, stored⟩
  cases status with
  | ok =>
      cases stored with
      | none => exact .error hfirst _
      | some input =>
          have hstored := findEntry_of_get hget
          rw [hfirst.values_eq] at hstored
          apply Outcome.write 1 input hfirst
          intro copied hcopied hinputCopy _
          apply Outcome.port env request "path" "" 2 3 hcopied
          intro second hsecond hpath hothers
          have hread : second.scratch 1 = input := (hothers 1 (by decide) (by decide)).trans hinputCopy
          simp only [on_bind, on_get, on_read]
          cases hselector : jsonPath second.scratchCapacity (second.scratch 2) with
          | error code => exact .error hsecond _
          | ok selector =>
              apply Outcome.write 2 selector hsecond
              intro chosen hchosen hselectorCopy hkept
              apply Outcome.port env request "output_key" "parsed_output" 4 3 hchosen
              intro third hthird houtput hothers
              have hinputRead : third.scratch 1 = input :=
                ((hothers 1 (by decide) (by decide)).trans (hkept 1 (by decide))).trans hread
              have hselectorRead : third.scratch 2 = selector :=
                (hothers 2 (by decide) (by decide)).trans hselectorCopy
              rw [on_bind, on_read, hinputRead]
              dsimp only
              cases hdocument : env.parse input.bytes with
              | none => exact .failure hthird
              | some document =>
                  dsimp only
                  rw [on_bind, on_read, hselectorRead]
                  dsimp only
                  cases hselected : env.pathGet document selector with
                  | none => exact .failure hthird
                  | some selected =>
                      dsimp only
                      cases hvalue : selectedText env selected with
                      | error code => exact .error hthird _
                      | ok value =>
                          dsimp only
                          rw [on_bind, on_get]
                          dsimp only
                          by_cases hlong : value.length ≥ third.scratchCapacity
                          · rw [if_pos hlong]
                            exact .error hthird _
                          · rw [if_neg hlong, on_bind, on_read]
                            rw [hsecond.scratchCapacity_eq] at hselector
                            exact .publish _ hthird (.parseJson haction hinput hstored hpath hselector
                              houtput hdocument hselected hvalue)
  | enotfound => exact .failure hfirst
  | _ => exact .error hfirst _

theorem tickParseRegex_outcome (haction : request.action.bytes = ascii "ParseRegex") :
    Outcome host (LeafWrites env host request) (LeafM.on (tickParseRegex env request) host) := by
  unfold tickParseRegex
  apply Outcome.port env request "input_key" "shell_output" 0 2 (.refl host)
  intro first hfirst hinput _
  rw [on_bind, on_get]
  dsimp only
  rcases hget : first.values.get (some (first.scratch 0)) (some first.scratchCapacity) with
    ⟨status, size, stored⟩
  cases status with
  | ok =>
      cases stored with
      | none => exact .error hfirst _
      | some input =>
          have hstored := findEntry_of_get hget
          rw [hfirst.values_eq] at hstored
          apply Outcome.write 1 input hfirst
          intro copied hcopied hinputCopy _
          apply Outcome.port env request "pattern" "" 3 2 hcopied
          intro second hsecond hpattern hothers
          have hread : second.scratch 1 = input := (hothers 1 (by decide) (by decide)).trans hinputCopy
          rw [on_bind, on_read]
          dsimp only
          obtain ⟨cache, hcached⟩ := cachedRegex_on env second (second.scratch 3)
          have hcompiled : compiledRegex env second (second.scratch 3) =
              compiledRegex env host (second.scratch 3) := by
            rw [compiledRegex, compiledRegex, hsecond.regexCache_eq, hsecond.scratchCapacity_eq]
          rw [on_bind, hcached, hcompiled]
          dsimp only
          have hlater : ({ host with regexCache := cache } : NativeHost Regex).Alike
              { second with regexCache := cache } :=
            ⟨hsecond.values_eq, hsecond.scratchCapacity_eq, hsecond.pairCapacity_eq, rfl⟩
          apply Outcome.rebase (show { host with regexCache := cache }.values = host.values from rfl)
          cases hregex : compiledRegex env host (second.scratch 3) with
          | error status => cases status <;> first | exact .failure hlater | exact .error hlater _
          | ok regex =>
              obtain ⟨third, hthird, hothers, hinteger⟩ := resolveInteger_on env
                { second with regexCache := cache } (parameter request "capture_group") 1 2
              have hthirdAlike := hlater.scratched hthird
              have hsame : integerOf env second.values second.scratchCapacity
                  (parameter request "capture_group") 1 = integerOf env host.values
                    host.scratchCapacity (parameter request "capture_group") 1 := by
                rw [hsecond.values_eq, hsecond.scratchCapacity_eq]
              dsimp only at hinteger ⊢
              rw [on_bind, hinteger, hsame]
              cases hgroup : integerOf env host.values host.scratchCapacity
                  (parameter request "capture_group") 1 with
              | error code => exact .error hthirdAlike _
              | ok group =>
                  dsimp only
                  split
                  · exact .failure hthirdAlike
                  · next hrange =>
                      rw [Bool.or_eq_true, not_or, decide_eq_true_iff, decide_eq_true_iff,
                        Int.not_le, gt_iff_lt, Nat.not_lt] at hrange
                      have hthirdRead : third.scratch 1 = input :=
                        (hothers 1 (by decide) (by decide)).trans hread
                      rw [on_bind, on_read, hthirdRead]
                      dsimp only
                      rcases hsearch : env.searchGroup regex input.bytes group.toNat with ⟨status, found⟩
                      cases status with
                      | noMatch => exact .failure hthirdAlike
                      | ok =>
                          apply Outcome.port env request "output_key" "parsed_output" 0 2 hthirdAlike
                          intro fourth hfourth houtput hlast
                          have hinputRead : fourth.scratch 1 = input :=
                            (hlast 1 (by decide) (by decide)).trans hthirdRead
                          have hwrites := LeafWrites.parseRegex haction hinput hstored hpattern hregex
                            hgroup hrange.1 hrange.2 hsearch houtput
                          cases hparticipated : found.participated with
                          | false =>
                              rw [hparticipated, if_neg Bool.false_ne_true] at hwrites
                              apply Outcome.write 2 _ hfourth
                              intro written hwritten hvalueRead hkept
                              simp only [on_bind, on_read]
                              apply Outcome.publish _ hwritten
                              rwa [hvalueRead, hkept 0 (by decide)]
                          | true =>
                              rw [hparticipated, if_pos rfl] at hwrites
                              simp only [Bool.not_true, Bool.false_eq_true, if_false]
                              rw [on_bind, on_get]
                              dsimp only
                              by_cases hlong : found.size ≥ fourth.scratchCapacity
                              · rw [if_pos hlong]
                                exact .error hfourth _
                              · rw [if_neg hlong, on_bind, on_read]
                                apply Outcome.write 2 _ hfourth
                                intro written hwritten hvalueRead hkept
                                simp only [on_bind, on_read]
                                apply Outcome.publish _ hwritten
                                rwa [hvalueRead, hkept 0 (by decide), hinputRead]
                      | _ => exact .error hthirdAlike _
  | enotfound => exact .failure hfirst
  | _ => exact .error hfirst _

/-- Resolving the filter publishes nothing. -/
theorem lineFilter_on (env : Environment Number Regex) (host : NativeHost Regex)
    (request : LeafRequest Number) :
    (LeafM.on (lineFilter env request) host).2.values = host.values ∧
      (LeafM.on (lineFilter env request) host).2.scratchCapacity = host.scratchCapacity := by
  unfold lineFilter
  cases parameter request "filter" with
  | none => exact ⟨rfl, rfl⟩
  | some param =>
      have hspec := resolve_on env host param 1 2
      dsimp only
      rw [on_bind]
      generalize LeafM.on (resolve env param 1 2) host = ran at hspec
      obtain ⟨result, next⟩ := ran
      obtain ⟨-, ⟨scratch, rfl⟩, -, -⟩ := hspec
      cases result with
      | error code => exact ⟨rfl, rfl⟩
      | ok value =>
          dsimp only
          rw [on_bind, on_read]
          dsimp only
          by_cases hempty : (scratch 1).length = 0
          · rw [if_pos hempty]
            exact ⟨rfl, rfl⟩
          · obtain ⟨cache, hcached⟩ := cachedRegex_on env { host with scratch } (scratch 1)
            rw [if_neg hempty, on_bind, hcached]
            dsimp only
            cases compiledRegex env { host with scratch } (scratch 1) with
            | ok regex => exact ⟨rfl, rfl⟩
            | error status => cases status <;> exact ⟨rfl, rfl⟩

theorem tickParseLines_outcome (env : Environment Number Regex) (host : NativeHost Regex)
    (request : LeafRequest Number) :
    Outcome host (LineWrites env host request) (LeafM.on (tickParseLines env request) host) := by
  unfold tickParseLines
  rw [on_bind]
  have hquiet := lineFilter_on env host request
  rcases hfilter : LeafM.on (lineFilter env request) host with ⟨result, start⟩
  rw [hfilter] at hquiet
  obtain ⟨hvalues, hcapacity⟩ := hquiet
  dsimp only at hvalues hcapacity
  have hport : ∀ name fallback,
      portText env start request name fallback = portText env host request name fallback := by
    intro name fallback
    rw [portText, portText, hvalues, hcapacity]
  cases result with
  | error code =>
      refine .quiet ?_ hvalues
      intro hsuccess
      cases hsuccess
  | ok search =>
      dsimp only
      apply Outcome.rebase hvalues
      apply Outcome.port env request "input_key" "shell_output" 0 2 (.refl start)
      intro first hfirst hinput _
      rw [hport] at hinput
      rw [on_bind, on_get]
      dsimp only
      rcases hget : first.values.get (some (first.scratch 0)) (some first.scratchCapacity) with
        ⟨status, size, stored⟩
      cases status with
      | ok =>
          cases stored with
          | none => exact .error hfirst _
          | some input =>
              have hstored := findEntry_of_get hget
              rw [hfirst.values_eq, hvalues] at hstored
              apply Outcome.write 1 input hfirst
              intro copied hcopied hinputCopy _
              apply Outcome.port env request "output_key" "parsed_lines" 0 2 hcopied
              intro second hsecond houtput hothers
              rw [hport] at houtput
              simp only [on_bind, on_read, on_get]
              by_cases hroom : second.scratchCapacity - (second.scratch 0).length ≤ 6
              · rw [if_pos hroom]
                exact .error hsecond _
              · rw [if_neg hroom]
                apply Outcome.write 2 _ hsecond
                intro third hthird hcountKey hkept
                cases hcompact : compact search input.length ⟨input.bytes ++ [0], 0, 0, 0⟩ with
                | error status => exact .error hthird _
                | ok state =>
                    obtain ⟨htaken, hcount⟩ := compact_eq input.nulFree hcompact
                    apply Outcome.write 1 _ hthird
                    intro fourth hfourth hjoined hlast
                    have hbytes : (fourth.scratch 1).bytes =
                        joinLines (keptLines search input.bytes) := by
                      rw [hjoined, htaken, CString.ofBuffer_bytes (joinLines_nulFree input.nulFree)]
                    have hcountRead : fourth.scratch 2 =
                        (second.scratch 0).append (CString.literal "_count") :=
                      (hlast 2 (by decide)).trans hcountKey
                    have hwrites := LineWrites.mk (by rw [hfilter]) hinput hstored houtput hbytes
                    rw [on_bind, on_get]
                    dsimp only
                    rcases hmany : fourth.values.setMany [(some (second.scratch 0),
                      some (fourth.scratch 1)), (some (fourth.scratch 2), some (decimal state.count))]
                      with ⟨values, status⟩
                    cases status with
                    | ok =>
                        have hpublished := @ValueStore.findEntry_setMany fourth.values values
                          [(second.scratch 0, fourth.scratch 1),
                            (fourth.scratch 2, decimal state.count)] hmany
                        rw [hfourth.values_eq, hcountRead, hcount] at hpublished
                        exact .published _ hwrites rfl hpublished
                    | _ => exact .error hfourth _
      | enotfound => exact .failure hfirst
      | _ => exact .error hfirst _

theorem tickParseKeyValue_outcome (haction : request.action.bytes = ascii "ParseKeyValue") :
    Outcome host (LeafWrites env host request) (LeafM.on (tickParseKeyValue env request) host) := by
  unfold tickParseKeyValue
  apply Outcome.port env request "input_key" "shell_output" 3 4 (.refl host)
  intro first hfirst hinput _
  rw [on_bind, on_get]
  dsimp only
  rcases hget : first.values.get (some (first.scratch 3)) (some first.scratchCapacity) with
    ⟨status, size, stored⟩
  cases status with
  | ok =>
      cases stored with
      | none => exact .error hfirst _
      | some input =>
          have hstored := findEntry_of_get hget
          rw [hfirst.values_eq] at hstored
          apply Outcome.write 0 input hfirst
          intro copied hcopied hinputCopy _
          apply Outcome.port env request "delimiter" "=" 1 4 hcopied
          intro second hsecond hdelimiter hsecondOthers
          apply Outcome.port env request "line_separator" "\n" 2 4 hsecond
          intro third hthird hseparator hthirdOthers
          apply Outcome.port env request "output_key" "parsed_output" 3 4 hthird
          intro fourth hfourth houtput hothers
          have hinputRead : fourth.scratch 0 = input := by
            rw [hothers 0 (by decide) (by decide), hthirdOthers 0 (by decide) (by decide),
              hsecondOthers 0 (by decide) (by decide), hinputCopy]
          have hdelimiterRead : fourth.scratch 1 = second.scratch 1 := by
            rw [hothers 1 (by decide) (by decide), hthirdOthers 1 (by decide) (by decide)]
          have hseparatorRead : fourth.scratch 2 = third.scratch 2 := hothers 2 (by decide) (by decide)
          rw [on_bind, on_get]
          dsimp only
          rw [hinputRead, hdelimiterRead, hseparatorRead, hfourth.pairCapacity_eq, hfourth.scratchCapacity_eq]
          cases hencoded : praktorOutputKeyValueJson input.bytes (second.scratch 1).bytes
              (third.scratch 2).bytes host.pairCapacity host.scratchCapacity with
          | insufficient => exact .error hfourth _
          | invalid => exact .error hfourth _
          | ok output =>
              apply Outcome.write 4 (CString.ofBuffer output) hfourth
              intro written hwritten hvalueRead hkept
              simp only [on_bind, on_read]
              apply Outcome.publish _ hwritten
              rw [hvalueRead, hkept 3 (by decide)]
              exact .parseKeyValue haction hinput hstored hdelimiter hseparator houtput hencoded
  | enotfound => exact .failure hfirst
  | _ => exact .error hfirst _

/-- Reading the expected exit code publishes nothing. -/
theorem expectedCode_on (env : Environment Number Regex) (host : NativeHost Regex)
    (request : LeafRequest Number) :
    host.Scratched (LeafM.on (expectedCode env request) host).2 := by
  unfold expectedCode
  cases parameter request "expected" with
  | none => exact .refl host
  | some param =>
      cases param with
      | boolean value => exact .refl host
      | number value =>
          dsimp only
          cases env.toInt value with
          | none => exact .refl host
          | some value => exact .refl host
      | string text =>
          have hspec := resolve_on env host (.string text) 1 2
          dsimp only
          rw [on_bind, on_tryCatch]
          generalize LeafM.on (resolve env (.string text) 1 2) host = ran at hspec
          obtain ⟨result, next⟩ := ran
          have hscratched : host.Scratched next := hspec.scratched
          cases result with
          | error code => exact hscratched
          | ok value =>
              dsimp only
              rw [on_bind, on_read]
              dsimp only
              cases parseInteger env (next.scratch 1) with
              | ok value => exact hscratched
              | error code => exact hscratched

theorem tickCheckExitCode_outcome (haction : request.action.bytes = ascii "CheckExitCode") :
    Outcome host (LeafWrites env host request) (LeafM.on (tickCheckExitCode env request) host) := by
  unfold tickCheckExitCode
  apply Outcome.port env request "input_key" "shell_exit_code" 0 2 (.refl host)
  intro first hfirst _ _
  have hquiet := expectedCode_on env first request
  rw [on_bind]
  generalize LeafM.on (expectedCode env request) first = ran at hquiet
  obtain ⟨result, second⟩ := ran
  have hsecond := hfirst.scratched hquiet
  cases result with
  | error code => exact .error hsecond _
  | ok expected =>
      dsimp only
      rw [on_bind, on_get]
      dsimp only
      obtain ⟨status, size, stored⟩ :=
        second.values.get (some (second.scratch 0)) (some second.scratchCapacity)
      cases status with
      | ok =>
          cases stored with
          | none => exact .error hsecond _
          | some value =>
              apply Outcome.write 1 value hsecond
              intro third hthird hread _
              rw [on_bind, on_read]
              dsimp only
              cases parseInteger env (third.scratch 1) with
              | error code => exact .error hthird _
              | ok actual =>
                  dsimp only
                  split
                  · exact .published [] (.nothing (.inr haction)) rfl
                      (congrArg ValueStore.findEntry hthird.values_eq)
                  · exact .failure hthird
      | enotfound => exact .failure hsecond
      | _ => exact .error hsecond _

theorem tickSleep_outcome (haction : request.action.bytes = ascii "Sleep") :
    Outcome host (LeafWrites env host request) (LeafM.on (tickSleep env request) host) := by
  unfold tickSleep
  cases request.sessionOwner with
  | none => exact .error (.refl host) _
  | some owner =>
      dsimp only
      rw [on_bind, on_get]
      dsimp only
      cases findSleep host.sleepStates request with
      | none =>
          obtain ⟨next, ⟨scratch, rfl⟩, hduration⟩ :=
            sleepDuration_on env host (parameter request "duration")
          dsimp only
          rw [on_bind, hduration]
          cases durationOf env host.values host.scratchCapacity (parameter request "duration") with
          | error code => exact .quiet nofun rfl
          | ok duration =>
              dsimp only
              split
              · exact .published [] (.nothing (.inl haction)) rfl rfl
              · rw [on_bind, on_get]
                dsimp only
                cases host.sleepStates.findIdx? fun state => !state.active with
                | none => exact .quiet nofun rfl
                | some slot => exact .quiet nofun rfl
      | some slot =>
          dsimp only
          rw [on_bind, on_get]
          dsimp only
          cases host.sleepStates[slot]? with
          | none => exact .quiet nofun rfl
          | some state =>
              dsimp only
              split
              · exact .quiet nofun rfl
              split
              · exact .quiet nofun rfl
              · exact .published [] (.nothing (.inl haction)) rfl rfl

/-- A leaf publishes what its action says when it succeeds, and nothing otherwise. -/
theorem tickLeaf_outcome (env : Environment Number Regex) (host : NativeHost Regex)
    (request : LeafRequest Number) :
    Outcome host (LeafWrites env host request) (LeafM.on (tickLeaf env request) host) := by
  unfold tickLeaf
  by_cases hbranch : request.inParallelBranch = true
  · rw [if_pos hbranch]
    exact .error (.refl host) _
  rw [if_neg hbranch]
  by_cases hnames : (!namesAdmitted request.parameters) = true
  · rw [if_pos hnames]
    exact .error (.refl host) _
  rw [if_neg hnames]
  split
  · next haction => exact tickSleep_outcome haction
  rw [on_bind, on_get]
  dsimp only
  split
  · exact .error (.refl host) _
  split
  · next haction => exact tickParseJson_outcome haction
  split
  · next haction => exact tickParseRegex_outcome haction
  split
  · next haction => exact (tickParseLines_outcome env host request).mono fun _ => .parseLines haction
  split
  · next haction => exact tickParseKeyValue_outcome haction
  split
  · next haction => exact tickSetVariable_outcome haction
  split
  · next haction => exact tickCheckExitCode_outcome haction
  · exact .error (.refl host) _

end Leaves

/-! ## Results -/

/-- A key with a suffix is another key. -/
theorem append_ne (key suffix : CString) (hsuffix : suffix.bytes ≠ []) : key.append suffix ≠ key := by
  intro hsame
  have hlength := congrArg (fun text : CString => text.bytes.length) hsame
  have hpositive := List.length_pos_iff.mpr hsuffix
  rw [CString.append, List.length_append] at hlength
  omega

/-- A leaf never writes one key twice. -/
theorem LeafWrites.nodup {env : Environment Number Regex} {host : NativeHost Regex}
    {request : LeafRequest Number} {writes : List (CString × CString)}
    (hwrites : LeafWrites env host request writes) : (writes.map Prod.fst).Nodup := by
  cases hwrites with
  | nothing => exact List.nodup_nil
  | parseLines haction hlines =>
      obtain @⟨_, _, outputKey, _, _, _, _, _, _, _⟩ := hlines
      have hne := append_ne outputKey (CString.literal "_count") (by decide)
      simp [hne.symm]
  | _ => exact List.nodup_singleton _

/-- The values of Sleep and CheckExitCode are those of others. -/
theorem LeafWrites.eq_nil {env : Environment Number Regex} {host : NativeHost Regex}
    {request : LeafRequest Number} {writes : List (CString × CString)}
    (hwrites : LeafWrites env host request writes)
    (haction : request.action.bytes = ascii "Sleep" ∨ request.action.bytes = ascii "CheckExitCode") :
    writes = [] := by
  cases hwrites with
  | nothing => rfl
  | setVariable hother => rcases haction with h | h <;> exact absurd (h.symm.trans hother) (by decide)
  | parseJson hother => rcases haction with h | h <;> exact absurd (h.symm.trans hother) (by decide)
  | parseRegex hother => rcases haction with h | h <;> exact absurd (h.symm.trans hother) (by decide)
  | parseLines hother => rcases haction with h | h <;> exact absurd (h.symm.trans hother) (by decide)
  | parseKeyValue hother => rcases haction with h | h <;> exact absurd (h.symm.trans hother) (by decide)

/-- The compaction of `ParseLines` is the join of the kept lines, and its loop matches and
copies every line from its original bytes. -/
theorem tickParseLines_compacts (env : Environment Number Regex) (host : NativeHost Regex)
    (request : LeafRequest Number) :
    ((LeafM.on (tickParseLines env request) host).1 = .ok .success →
      ∃ (inputKey input outputKey joined : CString) (search : Option (Bytes → RegexStatus)),
        (LeafM.on (lineFilter env request) host).1 = .ok search ∧
        portText env host request "input_key" "shell_output" = .ok inputKey ∧
        host.values.findEntry inputKey = some input ∧
        portText env host request "output_key" "parsed_lines" = .ok outputKey ∧
        joined.bytes = joinLines (keptLines search input.bytes) ∧
        (LeafM.on (tickParseLines env request) host).2.values.findEntry outputKey = some joined ∧
        (LeafM.on (tickParseLines env request) host).2.values.findEntry
            (outputKey.append (CString.literal "_count")) =
          some (decimal (keptLines search input.bytes).length)) ∧
    ∀ (search : Option (Bytes → RegexStatus)) (input : CString),
      (∀ state, Reached search input.bytes state →
        state.written ≤ state.cursor ∧
        state.buffer.drop state.cursor = (input.bytes ++ [0]).drop state.cursor ∧
        state.line = lineOf input.bytes state.cursor ∧
        (textAt state.buffer state.cursor ≠ [] → state.copied = lineOf input.bytes state.cursor)) ∧
      ∀ final, compact search input.length ⟨input.bytes ++ [0], 0, 0, 0⟩ = .ok final →
        Reached search input.bytes final ∧ textAt final.buffer final.cursor = [] := by
  constructor
  · intro hsuccess
    cases tickParseLines_outcome env host request with
    | quiet hreply _ => exact absurd hsuccess hreply
    | published writes hwrites _ hmap =>
        obtain @⟨inputKey, input, outputKey, joined, search, hfilter, hinput, hstored, houtput,
          hjoined⟩ := hwrites
        have hne := append_ne outputKey (CString.literal "_count") (by decide)
        refine ⟨inputKey, input, outputKey, joined, search, hfilter, hinput, hstored, houtput,
          hjoined, ?_, ?_⟩
        · rw [hmap]
          exact (Function.update_of_ne hne.symm ..).trans (Function.update_self ..)
        · rw [hmap]
          exact Function.update_self ..
  · intro search input
    refine ⟨fun state hreached => ?_, fun final hcompact => ?_⟩
    · obtain ⟨kept, hstate⟩ := hreached.compacted input.nulFree
      refine ⟨hstate.behind, hstate.unread, hstate.line_eq input.nulFree, fun hmore => ?_⟩
      exact hstate.copied_eq input.nulFree (Nat.lt_of_le_of_ne hstate.cursor_le
        (mt (hstate.textAt_eq_nil_iff input.nulFree).mpr hmore))
    · exact Reached.start.compact input.nulFree (Nat.le_refl _) hcompact

theorem tickLeaf_atomic (env : Environment Number Regex) (host : NativeHost Regex)
    (request : LeafRequest Number) :
    ((LeafM.on (tickLeaf env request) host).1 ≠ .ok .success →
      (LeafM.on (tickLeaf env request) host).2.values.findEntry = host.values.findEntry) ∧
    ((LeafM.on (tickLeaf env request) host).1 = .ok .success →
      ∃ writes, LeafWrites env host request writes ∧
        (∀ write ∈ writes, (LeafM.on (tickLeaf env request) host).2.values.findEntry write.1 =
          some write.2) ∧
        ∀ key, key ∉ writes.map Prod.fst →
          (LeafM.on (tickLeaf env request) host).2.values.findEntry key =
            host.values.findEntry key) ∧
    (request.action.bytes = ascii "Sleep" ∨ request.action.bytes = ascii "CheckExitCode" →
      (LeafM.on (tickLeaf env request) host).2.values.findEntry = host.values.findEntry) := by
  cases tickLeaf_outcome env host request with
  | quiet hreply hvalues =>
      rw [hvalues]
      exact ⟨fun _ => rfl, fun hsuccess => absurd hsuccess hreply, fun _ => rfl⟩
  | published writes hwrites hreply hmap =>
      rw [hmap]
      refine ⟨fun hother => absurd hreply hother, fun _ => ⟨writes, hwrites, ?_, ?_⟩, fun haction => ?_⟩
      · exact fun write hwrite => MapStore.bindAll_of_mem hwrites.nodup hwrite
      · exact fun key hkey => MapStore.bindAll_of_not_mem hkey
      · rw [hwrites.eq_nil haction]
        rfl

end Praktor.Native
